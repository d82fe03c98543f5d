import Mathlib
import ScriptSplit.Proofs.Disk.Through
import ScriptSplit.Proofs.Scan.Subdirectory

/-!
# Roots that are links

Without ignore files a scan finds the same below a directory, whichever path leads there, as long as the path
itself is no link. A root that is a link is not followed: the walk looks at the link alone and takes it as a
file, although its directory is what links below the root are compared with.

* `Scanner.ShortLinks`: no way to the directory uses up the links that those below it need.
* **`Scanner.relative_eq`**: scans by two paths of one directory find the same.
* `Scanner.LinkRoot`: a root that is a link; `Scanner.exists_scanDir_link`: what a scan of it returns.
* `Scanner.LinkRoot.slash`: with a slash at its end the same path is no link.
* **`Scanner.scanDir_link`**: a scan by a link, by the link with a slash and by another path of the directory.
* `Scanner.scanDir_link_empty`: a link to a directory with a script, by which nothing is found.
-/

namespace ScriptSplit

namespace Path

/-- What the paths below a directory start with. -/
def front (dir : String) : String :=
  (if isAbs dir then "/" else "") ++ if segments dir = [] then "" else "/".intercalate (segments dir) ++ "/"

theorem along_eq_append {dir : String} {names : List String} (h : Names names) (hne : names ≠ []) :
    along dir names = front dir ++ "/".intercalate names := by
  have hclean : clean (along dir names) = along dir names := by
    rw [along, if_neg hne]
    exact clean_ofSegments (kept_append (kept_segments dir) h)
  exact eq_append_of_below (isAbs_along h) hne (segments_along h) hclean

end Path

namespace Scanner

/-! ## Paths of one directory -/

/-- No link below the directory needs more than 215 links to be followed. At most 255 are, up to 40 of them on the
way to the directory. -/
def ShortLinks (d : Disk) (place : List String) : Prop :=
  ∀ names target, d.root.at? (place ++ names) = some (.link target) →
    ∀ leaf, Disk.evalLinksFrom d.root 255 place names = .ok leaf → Disk.evalLinksFrom d.root 215 place names = .ok leaf

theorem shortLinks_of_linkless {d : Disk} {place : List String} (h : Disk.LinklessAt d.root place) :
    ShortLinks d place := fun names target hlink => absurd hlink (h names target)

/-- Without ignore files all roots have the rules of the settings. -/
theorem rulesFor_of_off {cfg : Config} (h : cfg.exclude.gitignore = false) (d : Disk) (root : String) :
    rulesFor cfg d root = cfg.exclude.patterns.items.map (IgnoreRule.parse []) := by
  simp [rulesFor, h]

section Same

variable {d : Disk} {root root' : String} {place : List String} {entries : List (String × Node)}
  {cfg : Config} {includes : List Glob}

/-- Where a link below the directory leads does not depend on the path of the directory. -/
theorem RealRoot.evalLinks_along_iff (h : RealRoot d root place entries) (hcwd : Path.isAbs d.cwd = true)
    (hshort : ShortLinks d place) {names : List String} (hnames : Path.Names names) (hne : names ≠ []) {target : String}
    (hlink : (Node.dir entries).at? names = some (.link target)) (resolved : String) :
    d.evalLinks (Path.along root names) = .ok resolved ↔
      ∃ leaf, Disk.evalLinksFrom d.root 215 place names = .ok leaf ∧ Path.ofSegments true leaf = resolved := by
  obtain ⟨left, hleft, heval⟩ := Disk.exists_evalLinks_along hcwd (Disk.ne_empty_of_place h.real) h.absolute h.dir
  have hat : d.root.at? (place ++ names) = some (.link target) := by
    rw [Node.at?_append, h.dir]
    exact hlink
  rw [heval names hnames hne]
  constructor
  · intro hresolved
    cases hleaf : Disk.evalLinksFrom d.root (left + 215) place names with
    | error e =>
      rw [hleaf] at hresolved
      cases hresolved
    | ok leaf =>
      rw [hleaf] at hresolved
      have hmore : left + 215 ≤ 255 := by
        have : Disk.maxLinks = 40 := rfl
        omega
      exact ⟨leaf, hshort names target hat leaf (Disk.evalLinksFrom_mono hmore hleaf), Except.ok.inj hresolved⟩
  · rintro ⟨leaf, hleaf, rfl⟩
    rw [Disk.evalLinksFrom_mono (by omega) hleaf]
    rfl

/-- **The candidates of a directory** do not depend on its path. -/
theorem candidate_of_same (hgitignore : cfg.exclude.gitignore = false) (h : RealRoot d root place entries)
    (h' : RealRoot d root' place entries) (hcwd : Path.isAbs d.cwd = true) (hshort : ShortLinks d place)
    (hnamed : (Node.dir entries).WellNamed) {names : List String} {leaf : Node}
    (hcandidate : (rulesOf cfg d root place includes).Candidate place [] (.dir entries) names leaf) :
    (rulesOf cfg d root' place includes).Candidate place [] (.dir entries) names leaf := by
  have hrules : (rulesOf cfg d root' place includes).ignore = (rulesOf cfg d root place includes).ignore := by
    rw [rulesOf, rulesOf, rulesFor_of_off hgitignore, rulesFor_of_off hgitignore]
  have hnames := hnamed.names hcandidate.found
  have hne := hcandidate.ne_nil rfl
  refine ⟨hcandidate.found, hcandidate.notDir, fun dir hdir hproper hstart => ?_, ?_, fun hlink => ?_⟩
  · obtain ⟨hname, hkept⟩ := hcandidate.entered dir hdir hproper hstart
    exact ⟨hname, hrules ▸ hkept⟩
  · obtain ⟨hextension, hkept, hincluded⟩ := hcandidate.taken
    exact ⟨hextension, hrules ▸ hkept, hincluded⟩
  · obtain ⟨resolved, hresolved, hstays⟩ := hcandidate.stays hlink
    obtain ⟨target, rfl⟩ : ∃ target, leaf = .link target := by
      cases leaf with
      | link target => exact ⟨target, rfl⟩
      | file t => cases hlink
      | dir below => cases hlink
    have hiff := h.evalLinks_along_iff hcwd hshort hnames hne hcandidate.found resolved
    have hiff' := h'.evalLinks_along_iff hcwd hshort hnames hne hcandidate.found resolved
    exact ⟨resolved, hiff'.mpr (hiff.mp hresolved), hstays⟩

/-- **What a scan finds, as seen from its root**: the candidates, in order. -/
theorem exists_relative {s : Rules} {found : List String} (hnamed : (Node.dir entries).WellNamed)
    (hfinds : Finds s place [] (.dir entries) found) :
    ∃ rels : List String, (sortStrings found).map (Path.rel? s.root) = rels.map some ∧ rels.Pairwise (· < ·) ∧
      ∀ rel, rel ∈ rels ↔
        ∃ names leaf, s.Candidate place [] (.dir entries) names leaf ∧ rel = "/".intercalate names := by
  have hpath : ∀ path ∈ sortStrings found, ∃ names leaf, s.Candidate place [] (.dir entries) names leaf ∧
      path = Path.along s.root names ∧ Path.rel? s.root path = some ("/".intercalate names) := by
    intro path hpath
    obtain ⟨names, leaf, hcandidate, rfl⟩ := (hfinds.mem_iff path).mp (mem_sortStrings.mp hpath)
    rw [List.nil_append]
    exact ⟨names, leaf, hcandidate, rfl, Path.rel?_along (hnamed.names hcandidate.found) (hcandidate.ne_nil rfl)⟩
  refine ⟨(sortStrings found).map fun path => (Path.rel? s.root path).getD "", ?_, ?_, fun rel => ?_⟩
  · rw [List.map_map]
    refine List.map_congr_left fun path hmem => ?_
    obtain ⟨names, -, -, -, hrel⟩ := hpath path hmem
    simp [hrel]
  · -- all paths start with what the root gives
    rw [List.pairwise_map]
    refine (sortStrings_strict hfinds.nodup).imp_of_mem fun {path path'} hmem hmem' hlt => ?_
    obtain ⟨names, leaf, hcandidate, rfl, hrel⟩ := hpath path hmem
    obtain ⟨names', leaf', hcandidate', rfl, hrel'⟩ := hpath path' hmem'
    rw [hrel, hrel', Option.getD_some, Option.getD_some]
    rw [Path.along_eq_append (hnamed.names hcandidate.found) (hcandidate.ne_nil rfl),
      Path.along_eq_append (hnamed.names hcandidate'.found) (hcandidate'.ne_nil rfl)] at hlt
    exact lt_of_append_lt hlt
  · rw [List.mem_map]
    constructor
    · rintro ⟨path, hmem, rfl⟩
      obtain ⟨names, leaf, hcandidate, -, hrel⟩ := hpath path hmem
      exact ⟨names, leaf, hcandidate, by rw [hrel, Option.getD_some]⟩
    · rintro ⟨names, leaf, hcandidate, rfl⟩
      have hmem : Path.along s.root names ∈ sortStrings found :=
        mem_sortStrings.mpr ((hfinds.mem_iff _).mpr ⟨names, leaf, hcandidate, by rw [List.nil_append]⟩)
      refine ⟨_, hmem, ?_⟩
      rw [Path.rel?_along (hnamed.names hcandidate.found) (hcandidate.ne_nil rfl), Option.getD_some]

/-- **Scans by two paths of one directory** find the same, as seen from their roots. -/
theorem relative_eq (hgitignore : cfg.exclude.gitignore = false) (h : RealRoot d root place entries)
    (h' : RealRoot d root' place entries) (hcwd : Path.isAbs d.cwd = true) (hshort : ShortLinks d place)
    (hnamed : (Node.dir entries).WellNamed) {found found' : List String}
    (hfinds : Finds (rulesOf cfg d root place includes) place [] (.dir entries) found)
    (hfinds' : Finds (rulesOf cfg d root' place includes) place [] (.dir entries) found') :
    (sortStrings found).map (Path.rel? root) = (sortStrings found').map (Path.rel? root') := by
  obtain ⟨rels, hrels, hstrict, hmem⟩ := exists_relative hnamed hfinds
  obtain ⟨rels', hrels', hstrict', hmem'⟩ := exists_relative hnamed hfinds'
  rw [rulesOf] at hrels hrels'
  rw [hrels, hrels', hstrict.eq_of_mem_iff hstrict' fun rel => ?_]
  rw [hmem, hmem']
  constructor
  · rintro ⟨names, leaf, hcandidate, rfl⟩
    exact ⟨names, leaf, candidate_of_same hgitignore h h' hcwd hshort hnamed hcandidate, rfl⟩
  · rintro ⟨names, leaf, hcandidate, rfl⟩
    exact ⟨names, leaf, candidate_of_same hgitignore h' h hcwd hshort hnamed hcandidate, rfl⟩

end Same

/-! ## Links as roots -/

/-- The root is a link that leads to the directory at `place`, and so do its cleaned and its absolute path. -/
structure LinkRoot (d : Disk) (root : String) (place : List String) (entries : List (String × Node)) : Prop where
  link : ∃ target, d.find .keep root = .ok (.link target)
  real : d.place .follow root = .ok place
  dir : d.root.at? place = some (.dir entries)
  ne_nil : place ≠ []
  cleaned : d.place .follow (Path.clean root) = .ok place
  absolute : d.place .follow (Path.abs d.cwd root) = .ok place

/-- A root that is no directory is a candidate itself. -/
structure Rules.TakesRoot (s : Rules) : Prop where
  extension : s.config.hasExtension s.root = true
  kept : isIgnored s.ignore ["."] false = false
  included : s.includes = [] ∨ ∃ g ∈ s.includes, g.accepts "." = .ok true

section Link

variable {d : Disk} {root : String} {place : List String} {entries : List (String × Node)} {includes : List Glob}

/-- **With a slash at its end** the path of a link leads to the directory. -/
theorem LinkRoot.slash (h : LinkRoot d root place entries) (hcwd : Path.isAbs d.cwd = true) :
    RealRoot d (root ++ "/") place entries := by
  have hroot : root ≠ "" := Disk.ne_empty_of_place h.real
  have hsteps : d.steps (root ++ "/") = d.steps root ++ [""] := by
    rw [Disk.steps, Disk.steps, Path.isAbs_slash_end hroot, ← Path.parts_slash_end]
    split_ifs
    · rfl
    · simp only [String.append_assoc]
  have hwalk := h.real
  rw [Disk.place_eq_walk hroot, ← List.append_nil (d.steps root)] at hwalk
  obtain ⟨left, middle, htrail, hrest⟩ := Disk.exists_trail (.inl rfl) _ _ _ hwalk
  obtain rfl := Disk.walk_stays (by simp) hrest
  refine ⟨?_, h.dir, h.ne_nil, ?_, ?_⟩
  · rw [Disk.place_eq_walk (by simp), hsteps, Disk.walk_append_of_trail htrail (.inr (List.cons_ne_nil _ _)),
      Disk.walk_stay h.dir (.inl rfl), Disk.walk]
  · rw [Path.clean_append_slash hroot]
    exact h.cleaned
  · rw [Path.abs_slash_end hcwd hroot]
    exact h.absolute

/-- What a scan takes of its root, if it is no directory. -/
theorem exists_taken_root {s : Rules} (hanswer : Answer s.includes) : ∃ found, s.taken s.root = .ok found ∧
    (found = [s.root] ∧ s.TakesRoot ∨ found = [] ∧ ¬ s.TakesRoot) := by
  have hrelative : s.relative s.root = "." := by
    rw [Rules.relative, Path.rel?, if_pos rfl, Option.getD_some]
  have hparts : Path.parts "." = ["."] := by decide
  obtain ⟨included, hincluded, hiff⟩ := isIncluded_eq hanswer "."
  unfold Rules.taken Rules.takesFile
  rw [hrelative, isExcluded, hparts, hincluded]
  by_cases hpasses : (s.config.hasExtension s.root && !isIgnored s.ignore ["."] false) = true
  · rw [if_pos hpasses]
    rw [Bool.and_eq_true, Bool.not_eq_true'] at hpasses
    cases included with
    | true => exact ⟨_, rfl, .inl ⟨rfl, hpasses.1, hpasses.2, hiff.mp rfl⟩⟩
    | false => exact ⟨_, rfl, .inr ⟨rfl, fun h => absurd (hiff.mpr h.included) Bool.false_ne_true⟩⟩
  · rw [if_neg hpasses]
    refine ⟨_, rfl, .inr ⟨rfl, fun h => hpasses ?_⟩⟩
    rw [Bool.and_eq_true, Bool.not_eq_true']
    exact ⟨h.extension, h.kept⟩

/-- **A scan of a link** does not go where the link leads. -/
theorem exists_scanDir_link (s : Scanner) (hcwd : Path.isAbs d.cwd = true) (h : LinkRoot d root place entries)
    (hglobs : globs s.config.scan.includeGlobs.items = .ok includes) (hanswer : Answer includes) :
    ∃ files later, s.scanDir d root = .ok (files, later) ∧
      (files = [root] ∧ (rulesOf s.config d root place includes).TakesRoot ∨
        files = [] ∧ ¬ (rulesOf s.config d root place includes).TakesRoot) := by
  obtain ⟨target, hlink⟩ := h.link
  obtain ⟨rules, hrules⟩ : ∃ rules, rules = rulesOf s.config d root place includes := ⟨_, rfl⟩
  have hroot : rules.root = root := by rw [hrules, rulesOf]
  have hat : rules.RootAt place := by
    rw [hrules]
    exact ⟨rfl, (h.slash hcwd).kept, h.ne_nil, hanswer⟩
  have heval : d.evalLinks root = .ok (Path.ofSegments true place) := Disk.evalLinks_of_place hcwd h.absolute
  have hstays : rules.linkStays root = true := by
    refine (hat.linkStays_iff root).mpr ⟨Path.ofSegments true place, ?_, ?_⟩
    · rw [hrules, rulesOf]
      exact heval
    · rw [Path.segments_ofSegments hat.kept]
  obtain ⟨found, hfound, hcases⟩ := exists_taken_root hat.answer
  rw [hroot] at hfound hcases
  have hopened : rules.openedRoot (.link target) = .link target := rfl
  have hcollect : collect rules root (Path.base root) (rules.openedRoot (.link target)) = .ok found := by
    rw [hopened, collect, if_pos hstays, hfound]
  subst hrules
  have hsort : sortStrings found = found := by
    rcases hcases with ⟨rfl, -⟩ | ⟨rfl, -⟩
    · exact List.mergeSort_singleton _
    · exact List.mergeSort_nil
  exact ⟨_, _, hsort ▸ scanDir_eq heval hglobs hlink hcollect, hcases⟩

/-- **A link as a root**: a scan of it returns the link or nothing, and agrees with a scan of the directory only if
both find nothing. With a slash at its end the same path is as good as any other of the directory. -/
theorem scanDir_link (s : Scanner) (hgitignore : s.config.exclude.gitignore = false) (hcwd : Path.isAbs d.cwd = true)
    (hlink : LinkRoot d root place entries) {dir : String} (hdir : RealRoot d dir place entries)
    (hnamed : (Node.dir entries).WellNamed) (hshort : ShortLinks d place)
    (hglobs : globs s.config.scan.includeGlobs.items = .ok includes) (hanswer : Answer includes) :
    ∃ found foundSlash foundDir later laterSlash laterDir, s.scanDir d root = .ok (found, later) ∧
      s.scanDir d (root ++ "/") = .ok (foundSlash, laterSlash) ∧ s.scanDir d dir = .ok (foundDir, laterDir) ∧
      (found = [root] ∧ (rulesOf s.config d root place includes).TakesRoot ∨
        found = [] ∧ ¬ (rulesOf s.config d root place includes).TakesRoot) ∧
      foundSlash.map (Path.rel? (root ++ "/")) = foundDir.map (Path.rel? dir) ∧
      (found.map (Path.rel? root) = foundDir.map (Path.rel? dir) ↔ found = [] ∧ foundDir = []) := by
  obtain ⟨found, later, hscan, hcases⟩ := exists_scanDir_link s hcwd hlink hglobs hanswer
  have hslash := hlink.slash hcwd
  obtain ⟨foundSlash, hfindsSlash, hscanSlash⟩ := exists_scanDir s hcwd hslash hnamed hglobs hanswer
  obtain ⟨foundDir, hfindsDir, hscanDir⟩ := exists_scanDir s hcwd hdir hnamed hglobs hanswer
  refine ⟨_, _, _, _, _, _, hscan, hscanSlash, hscanDir, hcases, ?_, ?_⟩
  · exact relative_eq hgitignore hslash hdir hcwd hshort hnamed hfindsSlash hfindsDir
  constructor
  · intro hsame
    rcases hcases with ⟨rfl, -⟩ | ⟨rfl, -⟩
    · -- the link is seen as a point, which no path below the directory is
      exfalso
      obtain ⟨rels, hrels, -, hmem⟩ := exists_relative hnamed hfindsDir
      rw [rulesOf] at hrels
      have hdot : some "." ∈ rels.map some := by
        rw [← hrels, ← hsame]
        simp [Path.rel?]
      obtain ⟨rel, hrel, hpoint⟩ := List.mem_map.mp hdot
      obtain ⟨names, leaf, hcandidate, rfl⟩ := (hmem rel).mp hrel
      exact Path.intercalate_ne_dot (hcandidate.ne_nil rfl)
        (fun name hname => (hnamed.names hcandidate.found name hname).1) (Option.some.inj hpoint)
    · exact ⟨rfl, List.map_eq_nil_iff.mp hsame.symm⟩
  · rintro ⟨hnone, hnoneDir⟩
    rw [hnone, hnoneDir]
    rfl

end Link

section Home

/-- A home with a link to a directory that holds a script. -/
def linkHome : Disk := ⟨.dir [("D", .dir [("a.js", .file [])]), ("L", .link "D")], "/"⟩

theorem wellNamed_linkHome : (Node.dir [("a.js", .file [])]).WellNamed := by
  simp [Node.WellNamed, WellNamedEntries, Path.IsName]

theorem find_linkHome : linkHome.find .keep "L" = .ok (.link "D") := by
  have hsteps : linkHome.steps "L" = ["", "", "L"] := by decide
  have hkeep : linkHome.place .keep "L" = .ok ["L"] := by
    rw [Disk.place_eq_walk (by decide), hsteps]
    cbv
  rw [Disk.find, hkeep]
  rfl

theorem linkRoot_linkHome : LinkRoot linkHome "L" ["D"] [("a.js", .file [])] := by
  have hsteps : linkHome.steps "L" = ["", "", "L"] := by decide
  have hfollow : linkHome.place .follow "L" = .ok ["D"] := by
    rw [Disk.place_eq_walk (by decide), hsteps]
    cbv
  have hclean : Path.clean "L" = "L" := by decide
  have habs : Path.abs linkHome.cwd "L" = "/L" := by decide
  refine ⟨⟨"D", find_linkHome⟩, hfollow, rfl, by decide, by rw [hclean, hfollow], ?_⟩
  rw [habs]
  cbv

theorem realRoot_linkHome : RealRoot linkHome "D" ["D"] [("a.js", .file [])] := by
  have hsteps : linkHome.steps "D" = ["", "", "D"] := by decide
  have hclean : Path.clean "D" = "D" := by decide
  have habs : Path.abs linkHome.cwd "D" = "/D" := by decide
  refine ⟨?_, rfl, by decide, ?_, ?_⟩
  · rw [Disk.place_eq_walk (by decide), hsteps]
    cbv
  · rw [hclean, Disk.place_eq_walk (by decide), hsteps]
    cbv
  · rw [habs]
    cbv

theorem shortLinks_linkHome : ShortLinks linkHome ["D"] := by
  have hlinkless : (Node.dir [("a.js", .file [])]).Linkless := Node.linkless_dir (by simp [Node.linkless_file])
  exact shortLinks_of_linkless fun below target hlink => hlinkless below target hlink

theorem scanDir_link_home : ∃ found foundSlash foundDir later laterSlash laterDir,
    (new Config.default).scanDir linkHome "L" = .ok (found, later) ∧
    (new Config.default).scanDir linkHome ("L" ++ "/") = .ok (foundSlash, laterSlash) ∧
    (new Config.default).scanDir linkHome "D" = .ok (foundDir, laterDir) ∧
    (found = ["L"] ∧ (rulesOf Config.default linkHome "L" ["D"] []).TakesRoot ∨
      found = [] ∧ ¬ (rulesOf Config.default linkHome "L" ["D"] []).TakesRoot) ∧
    foundSlash.map (Path.rel? ("L" ++ "/")) = foundDir.map (Path.rel? "D") ∧
    (found.map (Path.rel? "L") = foundDir.map (Path.rel? "D") ↔ found = [] ∧ foundDir = []) :=
  scanDir_link (new Config.default) rfl (by decide) linkRoot_linkHome realRoot_linkHome wellNamed_linkHome
    shortLinks_linkHome rfl fun g hg => absurd hg List.not_mem_nil

/-- **Nothing is found by a link** to a directory that holds a script, although both have one resolved form. -/
theorem scanDir_link_empty : Config.default.exclude.gitignore = false ∧
    linkHome.find .keep "L" = .ok (.link "D") ∧ linkHome.evalLinks "L" = linkHome.evalLinks "D" ∧
    (∃ later, (new Config.default).scanDir linkHome "L" = .ok ([], later)) ∧
    ∃ later, (new Config.default).scanDir linkHome "D" = .ok (["D/a.js"], later) := by
  have hroot := realRoot_linkHome
  have hlink := linkRoot_linkHome
  have heval := Disk.evalLinks_of_place (by decide) hlink.absolute
  have heval' := Disk.evalLinks_of_place (by decide) hroot.absolute
  refine ⟨rfl, find_linkHome, heval.trans heval'.symm, ?_, ?_⟩
  · obtain ⟨files, later, hscan, ⟨-, htakes⟩ | ⟨rfl, -⟩⟩ :=
      exists_scanDir_link (new Config.default) (by decide) hlink rfl fun g hg => absurd hg List.not_mem_nil
    · exact absurd htakes.extension (by decide)
    · exact ⟨later, hscan⟩
  · have hopened : (rulesOf Config.default linkHome "D" ["D"] []).openedRoot (.dir [("a.js", .file [])]) =
        .dir [("a.js", .file [])] := hroot.openedRoot rfl rfl wellNamed_linkHome
    have hcollect : collect (rulesOf Config.default linkHome "D" ["D"] []) "D" (Path.base "D")
        (.dir [("a.js", .file [])]) = .ok ["D/a.js"] := by
      decide +kernel
    rw [← hopened] at hcollect
    have hsort : sortStrings ["D/a.js"] = ["D/a.js"] := List.mergeSort_singleton _
    have hscan := scanDir_eq (s := new Config.default) heval' rfl hroot.find hcollect
    rw [hsort] at hscan
    exact ⟨_, hscan⟩

end Home

end Scanner

end ScriptSplit
