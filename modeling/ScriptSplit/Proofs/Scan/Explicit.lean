import Mathlib
import ScriptSplit.Proofs.Disk.Absolute
import ScriptSplit.Proofs.Scan.Directory

/-!
# Files that are asked for

A file that is asked for passes by the same rules as one that a scan of its directory meets: the rules are
loaded for its directory, they are asked about its name, and its extension is looked at.

* `Scanner.taken_eq`: without include globs a scan takes a path by its extension and by the rules.
* **`Scanner.exists_below`**: without include globs a visit succeeds, and what it finds lies below the node.
* `Scanner.mem_collectEntries`: a file of the root is found exactly if it is taken.
* **`Scanner.scanFile_iff_scanDir`**: a file is a candidate exactly if a scan of its directory finds it.
-/

namespace ScriptSplit.Scanner

/-! ## Visits without include globs -/

section Taken

variable {s : Rules} (hincludes : s.includes = [])
include hincludes

/-- **What is taken** without include globs. -/
theorem taken_eq (path : String) : s.taken path =
    .ok (if s.config.hasExtension path && !isExcluded s.ignore (s.relative path) false then [path] else []) := by
  have hincluded : isIncluded s.includes (s.relative path) = .ok true := by simp [isIncluded, hincludes]
  unfold Rules.taken Rules.takesFile
  rw [hincluded]
  split_ifs <;> rfl

theorem eq_of_mem_taken {path path' : String} {found : List String} (h : s.taken path = .ok found)
    (hmem : path' ∈ found) : path' = path := by
  rw [taken_eq hincludes] at h
  rw [← Except.ok.inj h] at hmem
  split_ifs at hmem
  · exact List.mem_singleton.mp hmem
  · exact absurd hmem List.not_mem_nil

end Taken

mutual

/-- **A visit succeeds**, and what it finds lies at or below the node. -/
theorem exists_below {s : Rules} (hincludes : s.includes = []) {start : List String} (hstart : Path.Names start) {name : String}
    (hname : Path.IsName name ∧ name ≠ "..") : (n : Node) → n.WellNamed →
      ∃ found, collect s (Path.along s.root (start ++ [name])) name n = .ok found ∧
        ∀ path ∈ found, ∃ below, Path.Names (name :: below) ∧ path = Path.along s.root (start ++ name :: below)
  | .file t, _ => by
    rw [collect]
    exact ⟨_, taken_eq hincludes _, fun path hpath =>
      ⟨[], Path.names_singleton hname, eq_of_mem_taken hincludes (taken_eq hincludes _) hpath⟩⟩
  | .link target, _ => by
    rw [collect]
    split_ifs
    · exact ⟨_, taken_eq hincludes _, fun path hpath =>
        ⟨[], Path.names_singleton hname, eq_of_mem_taken hincludes (taken_eq hincludes _) hpath⟩⟩
    · exact ⟨[], rfl, fun path hpath => absurd hpath List.not_mem_nil⟩
  | .dir entries, hn => by
    rw [Node.WellNamed] at hn
    rw [collect]
    split_ifs
    · obtain ⟨found, hfound, hall⟩ :=
        exists_belowEntries hincludes (hstart.append (Path.names_singleton hname)) entries hn.2
      refine ⟨found, hfound, fun path hpath => ?_⟩
      obtain ⟨inner, n, below, -, hbelow, rfl⟩ := hall path hpath
      exact ⟨inner :: below, List.forall_mem_cons.mpr ⟨hname, hbelow⟩, by rw [← List.append_cons]⟩
    · exact ⟨[], rfl, fun path hpath => absurd hpath List.not_mem_nil⟩

/-- A visit of entries succeeds, and what it finds lies at or below one of them. -/
theorem exists_belowEntries {s : Rules} (hincludes : s.includes = []) {start : List String} (hstart : Path.Names start) :
    (entries : List (String × Node)) → WellNamedEntries entries →
      ∃ found, collectEntries s (Path.along s.root start) entries = .ok found ∧
        ∀ path ∈ found, ∃ name n below, (name, n) ∈ entries ∧ Path.Names (name :: below) ∧
          path = Path.along s.root (start ++ name :: below)
  | [], _ => ⟨[], rfl, fun path hpath => absurd hpath List.not_mem_nil⟩
  | (name, n) :: rest, hnamed => by
    rw [WellNamedEntries] at hnamed
    obtain ⟨found, hfound, hall⟩ := exists_below hincludes hstart hnamed.1 n hnamed.2.1
    obtain ⟨more, hmore, hrest⟩ := exists_belowEntries hincludes hstart rest hnamed.2.2
    refine ⟨found ++ more, ?_, fun path hpath => ?_⟩
    · rw [collectEntries, Path.join_along hstart hnamed.1, hfound, hmore]
      rfl
    · rcases List.mem_append.mp hpath with hpath | hpath
      · obtain ⟨below, hbelow, rfl⟩ := hall path hpath
        exact ⟨name, n, below, List.mem_cons_self, hbelow, rfl⟩
      · obtain ⟨name', n', below, hmem, hbelow, rfl⟩ := hrest path hpath
        exact ⟨name', n', below, List.mem_cons_of_mem _ hmem, hbelow, rfl⟩

end

section Root

variable {s : Rules} (hincludes : s.includes = []) {name : String}
include hincludes

theorem mem_taken_root (hname : Path.IsName name ∧ name ≠ "..") {found : List String}
    (h : s.taken (Path.along s.root [name]) = .ok found) : Path.along s.root [name] ∈ found ↔
      s.config.hasExtension (Path.along s.root [name]) = true ∧ isExcluded s.ignore name false = false := by
  have hrelative : s.relative (Path.along s.root [name]) = name := by
    rw [Rules.relative, Path.rel?_along (Path.names_singleton hname) (List.cons_ne_nil _ _), Option.getD_some,
      String.intercalate_singleton]
  rw [taken_eq hincludes, hrelative] at h
  rw [← Except.ok.inj h, ← Bool.not_eq_true', ← Bool.and_eq_true]
  split_ifs with htakes
  · simp [htakes]
  · simpa using htakes

/-- **A file of the root is found** exactly if it is taken: what is found below the other entries has other
names. -/
theorem mem_collectEntries {t : Bytes} (entries : List (String × Node)) (hnodup : (entries.map Prod.fst).Nodup)
    (hnamed : WellNamedEntries entries) (hmem : (name, Node.file t) ∈ entries) :
    ∃ found, collectEntries s s.root entries = .ok found ∧ (Path.along s.root [name] ∈ found ↔
      s.config.hasExtension (Path.along s.root [name]) = true ∧ isExcluded s.ignore name false = false) := by
  have hstart : Path.Names [] := fun s hs => absurd hs List.not_mem_nil
  have hname := (hnamed.of_mem hmem).1
  have hother : ∀ {other : String} {below : List String}, Path.Names (other :: below) →
      Path.along s.root [name] = Path.along s.root ([] ++ other :: below) → name = other := fun hbelow heq =>
    (List.cons.inj (Path.along_inj (Path.names_singleton hname) hbelow heq)).1
  induction entries with
  | nil => exact absurd hmem List.not_mem_nil
  | cons e rest ih =>
    obtain ⟨other, n⟩ := e
    have hwell := hnamed
    rw [WellNamedEntries] at hwell
    rw [List.map_cons, List.nodup_cons] at hnodup
    have hjoin : Path.join s.root other = Path.along s.root [other] := Path.join_along hstart hwell.1
    rw [collectEntries, hjoin]
    rcases List.mem_cons.mp hmem with heq | hmem
    · cases heq
      obtain ⟨more, hmore, hrest⟩ := exists_belowEntries hincludes hstart rest hwell.2.2
      rw [Path.along, if_pos rfl] at hmore
      have hfound := taken_eq hincludes (Path.along s.root [name])
      refine ⟨_, by rw [collect, hfound, hmore]; rfl, ?_⟩
      rw [List.mem_append, ← mem_taken_root hincludes hname hfound]
      refine or_iff_left fun hcontra => hnodup.1 ?_
      obtain ⟨name', n', below, hmem', hbelow, heq⟩ := hrest _ hcontra
      rw [hother hbelow heq]
      exact List.mem_map.mpr ⟨_, hmem', rfl⟩
    · obtain ⟨found, hfound, hall⟩ := exists_below hincludes hstart hwell.1 n hwell.2.1
      rw [List.nil_append] at hfound
      obtain ⟨more, hmore, hiff⟩ := ih hnodup.2 hwell.2.2 hmem
      refine ⟨found ++ more, by rw [hfound, hmore]; rfl, ?_⟩
      rw [List.mem_append, ← hiff]
      refine or_iff_right fun hcontra => hnodup.1 ?_
      obtain ⟨below, hbelow, heq⟩ := hall _ hcontra
      rw [← hother hbelow heq]
      exact List.mem_map.mpr ⟨_, hmem, rfl⟩

end Root

/-! ## The entries of the root -/

/-- To open an entry of the root leads to a well named tree. -/
theorem wellNamed_opened {s : Rules} (hnamed : s.disk.root.WellNamed) (name : String) {n : Node}
    (hn : n.WellNamed) : (s.opened name n).WellNamed := by
  cases n with
  | file t => exact hn
  | link target => exact hn
  | dir entries =>
    have hnil : (Node.dir []).WellNamed := by
      rw [Node.WellNamed]
      exact ⟨List.nodup_nil, trivial⟩
    cases hfind : s.disk.find .follow (Path.join s.root name) with
    | error e => simpa only [Rules.opened, hfind] using hnil
    | ok m =>
      obtain ⟨place, -, hat⟩ := Disk.find_eq_ok_iff.mp hfind
      cases m with
      | dir entries' => simpa only [Rules.opened, hfind] using hnamed.of_at? hat
      | file t => simpa only [Rules.opened, hfind] using hnil
      | link target => simpa only [Rules.opened, hfind] using hnil

theorem wellNamedEntries_map {f : String → Node → Node} (hf : ∀ name n, n.WellNamed → (f name n).WellNamed)
    {entries : List (String × Node)} (h : WellNamedEntries entries) :
    WellNamedEntries (entries.map fun e => (e.1, f e.1 e.2)) := by
  induction entries with
  | nil => exact trivial
  | cons e rest ih =>
    obtain ⟨name, n⟩ := e
    rw [WellNamedEntries] at h
    rw [List.map_cons, WellNamedEntries]
    exact ⟨h.1, hf name n h.2.1, ih h.2.2⟩

/-- A visit of the root, whose entries are opened. -/
theorem exists_collect_root {s : Rules} (hincludes : s.includes = []) (hdisk : s.disk.root.WellNamed)
    {entries : List (String × Node)} (hnamed : (Node.dir entries).WellNamed) {name : String} {t : Bytes}
    (hfile : entries.lookup name = some (.file t)) : ∃ found,
      (∀ base, collect s s.root base (s.openedRoot (.dir entries)) = .ok found) ∧ (Path.along s.root [name] ∈ found ↔
        s.config.hasExtension (Path.along s.root [name]) = true ∧ isExcluded s.ignore name false = false) := by
  rw [Node.WellNamed] at hnamed
  have hmem : (name, Node.file t) ∈ entries.map fun e => (e.1, s.opened e.1 e.2) :=
    List.mem_map.mpr ⟨(name, .file t), (Dict.lookup_eq_some_iff_mem hnamed.1).mp hfile, rfl⟩
  have hnodup : ((entries.map fun e => (e.1, s.opened e.1 e.2)).map Prod.fst).Nodup := by
    rw [List.map_map]
    exact hnamed.1
  have hwell := wellNamedEntries_map (fun name n hn => wellNamed_opened hdisk name hn) hnamed.2
  obtain ⟨found, hfound, hiff⟩ := mem_collectEntries hincludes _ hnodup hwell hmem
  exact ⟨found, fun base => (collect_root s base).trans hfound, hiff⟩

/-! ## Files that are asked for -/

section Explicit

variable {d : Disk} {path : String} {t : Bytes}

/-- What a scanner that has loaded nothing says of a file. -/
theorem scanFile_new (cfg : Config) (hfile : d.find .follow path = .ok (.file t)) : ∃ later,
    (new cfg).scanFile d path = .ok (!isExcluded (rulesFor cfg d (Path.dir path)) (Path.base path) false &&
      cfg.hasExtension path, later) := by
  have hstat : d.stat path = .ok (.file t) := by
    unfold Disk.stat
    rw [hfile]
  unfold scanFile
  rw [hstat]
  exact ⟨_, rfl⟩

/-- **A scan of the directory of a file** finds the file exactly if its extension and the rules say so. -/
theorem exists_scanDir_dir (s : Scanner) (hincludes : s.config.scan.includeGlobs.items = [])
    (hnamed : d.root.WellNamed) {above upper : List String} {name : String} {left : Nat} {entries : List (String × Node)}
    (hleaf : d.LeafAt path above name left upper entries) (hfile : entries.lookup name = some (.file t))
    (hlink : ∀ target, d.find .keep (Path.dir path) ≠ .ok (.link target)) {target : String}
    (heval : d.evalLinks (Path.dir path) = .ok target) :
    ∃ files later, s.scanDir d (Path.dir path) = .ok (files, later) ∧ (path ∈ files ↔
      s.config.hasExtension path = true ∧
        isExcluded (rulesFor s.config d (Path.dir path)) (Path.base path) false = false) := by
  obtain ⟨place, -, rfl⟩ := Disk.exists_resolved heval
  have hglobs : globs s.config.scan.includeGlobs.items = .ok [] := by rw [hincludes, globs]
  have hwell : (Node.dir entries).WellNamed := hnamed.of_at? hleaf.dir
  obtain ⟨rules, hrules⟩ : ∃ rules, rules = rulesOf s.config d (Path.dir path) place [] := ⟨_, rfl⟩
  have hroot : rules.root = Path.dir path := by rw [hrules, rulesOf]
  have hdisk : rules.disk.root.WellNamed := by rwa [hrules, rulesOf]
  obtain ⟨found, hfound, hiff⟩ := exists_collect_root (by rw [hrules, rulesOf]) hdisk hwell hfile
  rw [hroot] at hfound hiff
  refine ⟨_, _, scanDir_eq heval hglobs (hleaf.find_dir hlink) (hrules ▸ hfound (Path.base (Path.dir path))), ?_⟩
  rw [mem_sortStrings, hleaf.base_eq]
  rw [hleaf.along_eq, hrules, rulesOf] at hiff
  exact hiff

/-- **A file that is asked for** is a candidate exactly if a scan of its directory finds it. The scan answers, if
the path starts at the root or in a working directory that is a clean path, and one given by its place if the path
has steps upwards. -/
theorem scanFile_iff_scanDir (s : Scanner) (hincludes : s.config.scan.includeGlobs.items = [])
    (hnamed : d.root.WellNamed) (hclean : Path.clean path = path) (hfile : d.find .keep path = .ok (.file t))
    (hlink : ∀ target, d.find .keep (Path.dir path) ≠ .ok (.link target)) :
    ∃ takes later, (new s.config).scanFile d path = .ok (takes, later) ∧
      (∀ files later, s.scanDir d (Path.dir path) = .ok (files, later) → (takes = true ↔ path ∈ files)) ∧
      (Path.isAbs path = true ∨ d.CwdFor path → ∃ files later, s.scanDir d (Path.dir path) = .ok (files, later)) := by
  obtain ⟨above, name, left, upper, entries, hleaf, hlookup⟩ := Disk.exists_leaf hclean hfile
  obtain ⟨later, hscan⟩ := scanFile_new s.config (hleaf.find_follow hlookup (by simp))
  refine ⟨_, later, hscan, fun files later' hfiles => ?_, fun hcwd => ?_⟩
  · obtain ⟨target, heval⟩ : ∃ target, d.evalLinks (Path.dir path) = .ok target := by
      cases heval : d.evalLinks (Path.dir path) with
      | ok target => exact ⟨target, rfl⟩
      | error e =>
        unfold scanDir at hfiles
        simp only [heval] at hfiles
        cases hfiles
    obtain ⟨files', later'', hfiles', hiff⟩ := exists_scanDir_dir s hincludes hnamed hleaf hlookup hlink heval
    rw [hfiles] at hfiles'
    cases hfiles'
    rw [hiff, Bool.and_eq_true, Bool.not_eq_true', and_comm]
  · obtain ⟨files, later', hfiles, -⟩ := exists_scanDir_dir s hincludes hnamed hleaf hlookup hlink (hleaf.evalLinks_dir hcwd)
    exact ⟨files, later', hfiles⟩

end Explicit

theorem wellNamed_appHome : appHome.root.WellNamed := by
  simp [appHome, Node.WellNamed, WellNamedEntries, appEntries, Path.IsName]

theorem cwdFor_appHome (path : String) : appHome.CwdFor path :=
  ⟨[], fun s hs => absurd hs List.not_mem_nil, by decide, fun _ => ⟨_, rfl⟩⟩

/-- A relative path in a home without a repository. -/
theorem scanFile_iff_scanDir_app : ∃ takes files later later',
    (new Config.default).scanFile appHome "app/a.js" = .ok (takes, later) ∧
    (new Config.default).scanDir appHome (Path.dir "app/a.js") = .ok (files, later') ∧
    (takes = true ↔ "app/a.js" ∈ files) := by
  have hfile : appHome.find .keep "app/a.js" = .ok (.file []) := by
    have hsteps : appHome.steps "app/a.js" = ["", "", "app", "a.js"] := by decide
    rw [Disk.find, Disk.place_eq_walk (by decide), hsteps]
    cbv
  have hdir : appHome.find .keep (Path.dir "app/a.js") = .ok (.dir appEntries) := by
    have hpath : Path.dir "app/a.js" = "app" := by decide
    have hsteps : appHome.steps "app" = ["", "", "app"] := by decide
    rw [hpath, Disk.find, Disk.place_eq_walk (by decide), hsteps]
    cbv
  obtain ⟨takes, later, htakes, hiff, hanswers⟩ := scanFile_iff_scanDir (new Config.default) rfl wellNamed_appHome
    (by decide) hfile (fun target hlink => by rw [hdir] at hlink; cases hlink)
  obtain ⟨files, later', hfiles⟩ := hanswers (.inr (cwdFor_appHome _))
  exact ⟨takes, files, later, later', htakes, hfiles, hiff files later' hfiles⟩

end ScriptSplit.Scanner
