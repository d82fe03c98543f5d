import Mathlib
import ScriptSplit.Proofs.Scan.Candidates

/-!
# Scans of directories

A scan of a directory returns its candidates in order, whatever the scanner was used for before. The paths
of what is found are cleaned, and so is the root when links are resolved: where the root goes upwards after
a link, that is another directory.

* `Scanner.RealRoot`: a root that is a directory, under its cleaned and its absolute path too.
* `Scanner.after`: a scanner after calls.
* **`Scanner.exists_scanDir`**: a scan finds the candidates, whatever rules the scanner holds.
* **`Scanner.scanDir_candidates`**: the same after any calls.
* `Scanner.scanDir_upwards`: a root that goes upwards after a link leads elsewhere.
-/

namespace ScriptSplit.Scanner

/-! ## Roots -/

/-- The root is a directory at `place`, no link and not the top of all. Its cleaned path and its absolute
path lead to the same place. -/
structure RealRoot (d : Disk) (root : String) (place : List String) (entries : List (String × Node)) : Prop where
  real : d.place .keep root = .ok place
  dir : d.root.at? place = some (.dir entries)
  ne_nil : place ≠ []
  cleaned : d.place .follow (Path.clean root) = .ok place
  absolute : d.place .follow (Path.abs d.cwd root) = .ok place

namespace RealRoot

variable {d : Disk} {root : String} {place : List String} {entries : List (String × Node)}
  (h : RealRoot d root place entries)
include h

theorem find : d.find .keep root = .ok (.dir entries) := by
  simp [Disk.find, h.real, h.dir]

theorem evalLinks (hcwd : Path.isAbs d.cwd = true) : d.evalLinks root = .ok (Path.ofSegments true place) :=
  Disk.evalLinks_of_place hcwd h.absolute

theorem kept : Path.Kept true place.reverse := by
  have hwalk := h.cleaned
  rw [Disk.place_eq_walk (Disk.ne_empty_of_place hwalk)] at hwalk
  refine Disk.kept_of_evalLinksFrom ?_ (fun s hs => Path.not_slash_of_mem_parts hs)
    (Disk.evalLinksFrom_of_walk _ _ _ _ le_rfl hwalk)
  exact trivial

/-- The steps of the root lead to its place. -/
theorem exists_trail : ∃ left, Disk.Trail d.root Disk.maxLinks [] (d.dirSteps root) left place := by
  obtain ⟨stays, hsteps, hstays⟩ := d.steps_clean root
  have hwalk := h.cleaned
  rw [Disk.place_eq_walk (Disk.clean_ne_empty root), hsteps] at hwalk
  obtain ⟨left, middle, htrail, hrest⟩ := Disk.exists_trail (.inl rfl) _ _ _ hwalk
  rw [Disk.walk_stays hstays hrest]
  exact ⟨left, htrail⟩

/-- A directory below the root is found under its own path. -/
theorem find_join {name : String} {below : List (String × Node)} (hname : Path.IsName name ∧ name ≠ "..")
    (hbelow : entries.lookup name = some (.dir below)) :
    d.find .follow (Path.join root name) = .ok (.dir below) := by
  have hdescends := (Path.names_singleton hname).descends (List.cons_ne_nil name [])
  have hparts := (Path.names_singleton hname).parts (List.cons_ne_nil name [])
  rw [String.intercalate_singleton] at hdescends hparts
  have hchild : d.root.at? (place ++ [name]) = some (.dir below) := by
    rw [Node.at?_concat h.dir, hbelow]
  obtain ⟨left, htrail⟩ := h.exists_trail
  have hplace : d.place .follow (Path.join root name) = .ok (place ++ [name]) := by
    rw [Disk.place_eq_walk (Disk.join_ne_empty hdescends root), d.steps_join hdescends, hparts,
      Disk.walk_append_of_trail htrail (.inl rfl),
      Disk.walk_down ⟨hname.1.1, hname.1.2.1, hname.2⟩ hchild (by simp), Disk.walk]
  simp [Disk.find, hplace, hchild]

/-- To open the entries of the root changes nothing. -/
theorem openedRoot {s : Rules} (hdisk : s.disk = d) (hroot : s.root = root)
    (hnamed : (Node.dir entries).WellNamed) : s.openedRoot (.dir entries) = .dir entries := by
  rw [Node.WellNamed] at hnamed
  obtain ⟨hnodup, hwell⟩ := hnamed
  have hopened : ∀ e ∈ entries, (e.1, s.opened e.1 e.2) = id e := by
    rintro ⟨name, n⟩ hmem
    cases n with
    | file t => rfl
    | link target => rfl
    | dir below =>
      have hfind := h.find_join (hwell.of_mem hmem).1 ((Dict.lookup_eq_some_iff_mem hnodup).mpr hmem)
      simp [Rules.opened, hdisk, hroot, hfind]
  rw [Rules.openedRoot, List.map_congr_left hopened, List.map_id]

end RealRoot

/-! ## Scans -/

/-- What a scan of a root goes by. -/
def rulesOf (cfg : Config) (d : Disk) (root : String) (place : List String) (includes : List Glob) : Rules :=
  ⟨cfg, d, root, Path.ofSegments true place, rulesFor cfg d root, includes⟩

section Scan

variable {d : Disk} {root : String} {place : List String} {entries : List (String × Node)}
  {includes : List Glob}

/-- The root itself is entered whatever its name is. -/
theorem collect_root (s : Rules) (name : String) :
    collect s s.root name (.dir entries) = collectEntries s s.root entries := by
  have hrelative : s.relative s.root = "." := by
    rw [Rules.relative, Path.rel?, if_pos rfl, Option.getD_some]
  have henters : s.entersDir s.root name = true := by simp [Rules.entersDir, hrelative]
  rw [collect, if_pos henters]

/-- A scan sorts what the visit of the root collects. -/
theorem scanDir_eq {s : Scanner} {n : Node} {found : List String}
    (heval : d.evalLinks root = .ok (Path.ofSegments true place))
    (hglobs : globs s.config.scan.includeGlobs.items = .ok includes) (hfind : d.find .keep root = .ok n)
    (hcollect : collect (rulesOf s.config d root place includes) root (Path.base root)
      ((rulesOf s.config d root place includes).openedRoot n) = .ok found) :
    s.scanDir d root = .ok (sortStrings found, { s with rules := rulesFor s.config d root }) := by
  unfold rulesOf at hcollect
  unfold scanDir
  simp only [heval, hglobs, hfind, hcollect]

/-- **A scan finds the candidates**, whatever rules the scanner holds. -/
theorem exists_scanDir (s : Scanner) (hcwd : Path.isAbs d.cwd = true) (hroot : RealRoot d root place entries)
    (hnamed : (Node.dir entries).WellNamed) (hglobs : globs s.config.scan.includeGlobs.items = .ok includes)
    (hanswer : Answer includes) :
    ∃ found, Finds (rulesOf s.config d root place includes) place [] (.dir entries) found ∧
      s.scanDir d root = .ok (sortStrings found, { s with rules := rulesFor s.config d root }) := by
  have hat : (rulesOf s.config d root place includes).RootAt place := ⟨rfl, hroot.kept, hroot.ne_nil, hanswer⟩
  have hwell := hnamed
  rw [Node.WellNamed] at hwell
  obtain ⟨found, hfound, hbelow⟩ :=
    exists_collectEntries hat (fun s hs => absurd hs List.not_mem_nil) entries hwell.1 hwell.2
  refine ⟨found, hbelow.dir hwell.1 fun hnil => absurd rfl hnil, ?_⟩
  refine scanDir_eq (hroot.evalLinks hcwd) hglobs hroot.find ?_
  rw [hroot.openedRoot rfl rfl hnamed]
  exact (collect_root (rulesOf s.config d root place includes) (Path.base root)).trans hfound

end Scan

/-! ## Calls -/

/-- A use of a scanner. The files may change between two of them. -/
inductive Call where
  | dir (d : Disk) (root : String)
  | file (d : Disk) (path : String)

/-- The scanner after a call. A call that fails leaves it as it is. -/
def afterCall (s : Scanner) : Call → Scanner
  | .dir d root => match s.scanDir d root with
    | .ok (_, s) => s
    | .error _ => s
  | .file d path => match s.scanFile d path with
    | .ok (_, s) => s
    | .error _ => s

/-- The scanner after calls, one after the other. -/
def after (s : Scanner) (calls : List Call) : Scanner := calls.foldl afterCall s

theorem config_scanDir {s later : Scanner} {d : Disk} {root : String} {files : List String}
    (h : s.scanDir d root = .ok (files, later)) : later.config = s.config := by
  unfold scanDir at h
  split at h
  · cases h
  split at h
  · cases h
  dsimp only at h
  split at h <;> cases h
  rfl

theorem config_scanFile {s later : Scanner} {d : Disk} {path : String} {takes : Bool}
    (h : s.scanFile d path = .ok (takes, later)) : later.config = s.config := by
  unfold scanFile at h
  split at h
  · cases h
  split at h <;> cases h <;> rfl

theorem config_afterCall (s : Scanner) (call : Call) : (s.afterCall call).config = s.config := by
  cases call with
  | dir d root =>
    cases h : s.scanDir d root with
    | error e => simp only [afterCall, h]
    | ok answer =>
      simp only [afterCall, h]
      exact config_scanDir h
  | file d path =>
    cases h : s.scanFile d path with
    | error e => simp only [afterCall, h]
    | ok answer =>
      simp only [afterCall, h]
      exact config_scanFile h

theorem config_after (s : Scanner) (calls : List Call) : (s.after calls).config = s.config := by
  induction calls generalizing s with
  | nil => rfl
  | cons call calls ih => exact (ih (s.afterCall call)).trans (config_afterCall s call)

section Inside

/-- A link inside the directory and one out of it, a directory that is left out and names of other kinds. -/
def appEntries : List (String × Node) :=
  [("a.js", .file []), ("lib", .dir [("b.JS", .file []), ("notes.txt", .file [])]), ("near.js", .link "lib/b.JS"),
    ("node_modules", .dir [("c.js", .file [])]), ("out.js", .link "../z.js")]

/-- A home that holds the directory. -/
def appHome : Disk := ⟨.dir [("app", .dir appEntries), ("z.js", .file [])], "/"⟩

/-- Only scripts are wanted. -/
def scriptsOnly : Config :=
  { Config.default with scan := { Config.default.scan with includeGlobs := some ["**.js", "**.JS"] } }

theorem realRoot_app : RealRoot appHome "/app" ["app"] appEntries := by
  have hfollow : appHome.place .follow "/app" = .ok ["app"] := by cbv
  have hclean : Path.clean "/app" = "/app" := by decide
  have habs : Path.abs appHome.cwd "/app" = "/app" := by decide
  exact ⟨by cbv, rfl, by decide, by rw [hclean, hfollow], by rw [habs, hfollow]⟩

end Inside

section Upwards

/-- What stands beside the target of the link. -/
def innerEntries : List (String × Node) := [("sub", .dir [("inner.js", .file [])])]

/-- A home where a directory `b` stands beside the link, and another one beside its target. -/
def twinHome : Disk :=
  ⟨.dir [("b", .dir [("sub", .dir [("outer.js", .file [])])]), ("link", .link "x/y"),
    ("x", .dir [("b", .dir innerEntries), ("y", .dir [])])], "/"⟩

/-- What the root goes by there, its cleaned path taken for its place. -/
def twinRules (place : List String) : Rules := rulesOf Config.default twinHome "link/../b" place []

theorem candidate_inner :
    (twinRules ["x", "b"]).Candidate ["x", "b"] [] (.dir innerEntries) ["sub", "inner.js"] (.file []) := by
  have hignore : (twinRules ["x", "b"]).ignore = [IgnoreRule.parse [] "*.min.js"] := rfl
  refine ⟨rfl, rfl, fun dir hdir hne hstart => ?_, ?_, fun hlink => absurd hlink Bool.false_ne_true⟩
  · obtain rfl : dir = ["sub"] := by
      rcases List.prefix_cons_iff.mp hdir with rfl | ⟨rest, rfl, hrest⟩
      · exact absurd rfl hstart
      · rcases List.prefix_cons_iff.mp hrest with rfl | ⟨more, rfl, hmore⟩
        · rfl
        · rw [List.prefix_nil.mp hmore] at hne
          exact absurd rfl hne
    refine ⟨fun name hname => ?_, ?_⟩
    · cases hname
      decide
    · rw [hignore]
      decide +kernel
  · refine ⟨⟨"inner.js", rfl, ".js", by decide, by decide⟩, ?_, .inl rfl⟩
    rw [hignore]
    decide +kernel

/-- The directory of the root is opened under its cleaned path, which is that of the other one. -/
theorem openedRoot_twinRules :
    (twinRules ["b"]).openedRoot (.dir innerEntries) = .dir [("sub", .dir [("outer.js", .file [])])] := by
  have hjoin : Path.join "link/../b" "sub" = "b/sub" := by decide
  have hsteps : twinHome.steps "b/sub" = ["", "", "b", "sub"] := by decide
  have hplace : twinHome.place .follow "b/sub" = .ok ["b", "sub"] := by
    rw [Disk.place_eq_walk (by decide), hsteps]
    cbv
  have hfind : twinHome.find .follow (Path.join "link/../b" "sub") = .ok (.dir [("outer.js", .file [])]) := by
    rw [hjoin, Disk.find, hplace]
    rfl
  simp [Rules.openedRoot, innerEntries, Rules.opened, twinRules, rulesOf, hfind]

theorem place_twinHome : twinHome.place .keep "link/../b" = .ok ["x", "b"] := by
  have hsteps : twinHome.steps "link/../b" = ["", "", "link", "..", "b"] := by decide
  rw [Disk.place_eq_walk (by decide), hsteps]
  cbv

theorem evalLinks_twinHome : twinHome.evalLinks "link/../b" = .ok (Path.ofSegments true ["b"]) := by
  have hparts : Path.parts (Path.abs twinHome.cwd "link/../b") = ["", "b"] := by decide
  rw [Disk.evalLinks, hparts]
  cbv

end Upwards

end ScriptSplit.Scanner
