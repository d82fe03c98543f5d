import Mathlib
import ScriptSplit.Proofs.Scan.Directory

/-!
# Scans below a repository

The ignore rules of a repository are read from its top, and their domains are seen from there. A scan of a
directory below goes by the same rules, but asks them about paths as seen from that directory.

* `Scanner.Repository`, `Scanner.Subdirectory`: a directory that holds a repository, and one below it.
* **`Scanner.findGitRoot_absolute`**, **`Scanner.ignoreRulesIn_absolute`**: both have the rules of the repository.
* **`Scanner.scanDir_below`**: a scan of the directory below finds what lies in it, as far as the rules say the
  same of a path from both ends; `Scanner.isIgnored_append`: plain names do.
* `Scanner.scanDir_anchored`: a rule that is anchored to the top does not.
-/

namespace ScriptSplit.Scanner

/-! ## The repository -/

/-- The directory `r` holds a repository. There are no links. -/
structure Repository (d : Disk) (r : List String) (top : List (String × Node)) : Prop where
  cwd : Path.isAbs d.cwd = true
  linkless : d.root.Linkless
  named : d.root.WellNamed
  ne_nil : r ≠ []
  dir : d.root.at? r = some (.dir top)
  git : ∃ below, top.lookup ".git" = some (.dir below)

/-- The names `e` lead down to a directory; none on the way, and not that one, holds a repository of its own. -/
structure Subdirectory (top : List (String × Node)) (e : List String) (entries : List (String × Node)) : Prop where
  found : (Node.dir top).at? e = some (.dir entries)
  own : ∀ dir, dir ≠ [] → dir <+: e → ∀ below, (Node.dir top).at? (dir ++ [".git"]) ≠ some (.dir below)

/-! ## The way up -/

theorem length_splitOn_le {c : Char} (l : List Char) : (l.splitOn c).length ≤ l.length + 1 := by
  induction l with
  | nil => simp
  | cons x l ih =>
    rw [List.splitOn_cons_eq_if_modifyHead]
    split_ifs <;> simp <;> omega

theorem length_le_absolute {names : List String} (h : Path.Names names) :
    names.length ≤ (Path.absolute names).length := by
  by_cases hnil : names = []
  · simp [hnil]
  have hparts : Path.parts (Path.absolute names) = "" :: names := (Path.parts_ofSegments h.kept hnil).trans rfl
  have hlength : ((Path.absolute names).toList.splitOn '/').length ≤ (Path.absolute names).toList.length + 1 :=
    length_splitOn_le _
  have hsame : ((Path.absolute names).toList.splitOn '/').length = (Path.parts (Path.absolute names)).length := by
    rw [Path.parts, List.length_map]
  rw [hsame, hparts, List.length_cons, String.length_toList] at hlength
  omega

/-- The directory of a path of names drops the last name. -/
theorem dir_absolute {names : List String} {name : String} (h : Path.Names (names ++ [name])) :
    Path.dir (Path.absolute (names ++ [name])) = Path.absolute names :=
  Path.dir_ofSegments h.kept

theorem names_git : Path.Names [".git"] := Path.names_singleton (by simp [Path.IsName])

/-- There is a repository in the directory of names. -/
theorem isDir_git {d : Disk} (hlinkless : d.root.Linkless) {names : List String} (h : Path.Names names) :
    d.isDir (Path.join (Path.absolute names) ".git") = (d.root.at? (names ++ [".git"])).any Node.isDir := by
  have hjoin := Path.join_absolute h names_git (List.cons_ne_nil _ _)
  rw [String.intercalate_singleton] at hjoin
  rw [hjoin, Disk.isDir_absolute hlinkless (h.append names_git) (by simp)]

section Rules

variable {d : Disk} {r e : List String} {top entries : List (String × Node)} (h : Repository d r top)
  (hsub : Subdirectory top e entries)
include h

theorem Repository.names : Path.Names r := h.named.names h.dir

theorem Repository.at?_append (names : List String) : d.root.at? (r ++ names) = (Node.dir top).at? names := by
  rw [Node.at?_append, h.dir]
  rfl

theorem Repository.named_top : (Node.dir top).WellNamed := h.named.of_at? h.dir

theorem Repository.names_below {names : List String} {n : Node} (hn : (Node.dir top).at? names = some n) :
    Path.Names names := h.named_top.names hn

omit hsub in
/-- The way up from a directory below a repository ends at the repository. -/
theorem findGitRootFrom_absolute {fuel : Nat} (hnames : Path.Names e)
    (hown : ∀ dir, dir ≠ [] → dir <+: e → ∀ below, (Node.dir top).at? (dir ++ [".git"]) ≠ some (.dir below))
    (hfuel : e.length < fuel) :
    findGitRootFrom d fuel (Path.absolute (r ++ e)) = some (Path.absolute r) := by
  -- one step up for each name, beginning with the last
  induction e using List.reverseRecOn generalizing fuel with
  | nil =>
    obtain ⟨steps, rfl⟩ : ∃ steps, fuel = steps + 1 := ⟨fuel - 1, by simp at hfuel; omega⟩
    have hgit : d.isDir (Path.join (Path.absolute r) ".git") = true := by
      obtain ⟨below, hbelow⟩ := h.git
      rw [isDir_git h.linkless h.names, h.at?_append, Node.at?]
      simp [Node.child?, hbelow, Node.at?, Node.isDir]
    rw [List.append_nil, findGitRootFrom, if_pos hgit]
  | append_singleton e name ih =>
    rw [List.length_append, List.length_singleton] at hfuel
    obtain ⟨steps, rfl⟩ : ∃ steps, fuel = steps + 1 := ⟨fuel - 1, by omega⟩
    have hfull : Path.Names (r ++ (e ++ [name])) := h.names.append hnames
    have hgit : d.isDir (Path.join (Path.absolute (r ++ (e ++ [name]))) ".git") = false := by
      rw [isDir_git h.linkless hfull, List.append_assoc, h.at?_append]
      cases hat : (Node.dir top).at? (e ++ [name] ++ [".git"]) with
      | none => rfl
      | some n =>
        cases n with
        | dir below => exact absurd hat (hown _ (by simp) List.prefix_rfl below)
        | file t => rfl
        | link target => rfl
    have hup : Path.dir (Path.absolute (r ++ (e ++ [name]))) = Path.absolute (r ++ e) := by
      rw [← List.append_assoc] at hfull ⊢
      exact dir_absolute hfull
    have hne : Path.absolute (r ++ e) ≠ Path.absolute (r ++ (e ++ [name])) := by
      intro heq
      have hsegments := congrArg Path.segments heq
      rw [Path.segments_absolute hfull, Path.segments_absolute
        (h.names.append fun s hs => hnames s (List.mem_append_left _ hs))] at hsegments
      simp at hsegments
    rw [findGitRootFrom, if_neg (by simp [hgit])]
    simp only [hup, if_neg hne]
    exact ih (fun s hs => hnames s (List.mem_append_left _ hs))
      (fun dir hdir hstarts => hown dir hdir (hstarts.trans (List.prefix_append _ _))) (by omega)

include hsub

/-- **The repository of a directory below** is the one at the top. -/
theorem findGitRoot_absolute : findGitRoot d (Path.absolute (r ++ e)) = some (Path.absolute r) := by
  have hnames := h.names_below hsub.found
  have hlength := length_le_absolute (h.names.append hnames)
  rw [List.length_append] at hlength
  exact findGitRootFrom_absolute h hnames hsub.own (by omega)

end Rules

/-! ## The rules -/

/-- The rules of the ignore files in a tree, as seen from its top. -/
def rulesIn (n : Node) : List IgnoreRule := readIgnoreRules n.content? [] n

theorem ownIgnoreRules_congr {content? content?' : List String → Option Bytes}
    (hcontent : ∀ names, Path.Names names → names ≠ [] → content? names = content?' names) {domain : List String}
    (hdomain : Path.Names domain) : ownIgnoreRules content? domain = ownIgnoreRules content?' domain := by
  have hexclude : Path.Names [".git", "info", "exclude"] := by simp [Path.Names, Path.IsName]
  have hignore : Path.Names [".gitignore"] := by simp [Path.Names, Path.IsName]
  rw [ownIgnoreRules, ownIgnoreRules, hcontent _ (hdomain.append hexclude) (by simp),
    hcontent _ (hdomain.append hignore) (by simp)]

mutual

/-- Only files at paths of names are read. -/
theorem readIgnoreRules_congr {content? content?' : List String → Option Bytes}
    (hcontent : ∀ names, Path.Names names → names ≠ [] → content? names = content?' names) {domain : List String}
    (hdomain : Path.Names domain) : (n : Node) → n.WellNamed →
    readIgnoreRules content? domain n = readIgnoreRules content?' domain n
  | .file t, _ => by simp [readIgnoreRules]
  | .link target, _ => by simp [readIgnoreRules]
  | .dir entries, hn => by
    rw [Node.WellNamed] at hn
    rw [readIgnoreRules, readIgnoreRules, ownIgnoreRules_congr hcontent hdomain,
      ignoreRulesBelow_congr hcontent hdomain _ entries hn.2]

theorem ignoreRulesBelow_congr {content? content?' : List String → Option Bytes}
    (hcontent : ∀ names, Path.Names names → names ≠ [] → content? names = content?' names) {domain : List String}
    (hdomain : Path.Names domain) (rules : List IgnoreRule) :
    (entries : List (String × Node)) → WellNamedEntries entries →
    ignoreRulesBelow content? domain rules entries = ignoreRulesBelow content?' domain rules entries
  | [], _ => rfl
  | (name, n) :: rest, hnamed => by
    rw [WellNamedEntries] at hnamed
    rw [ignoreRulesBelow, ignoreRulesBelow,
      readIgnoreRules_congr hcontent (hdomain.append (Path.names_singleton hnamed.1)) n hnamed.2.1,
      ignoreRulesBelow_congr hcontent hdomain _ rest hnamed.2.2,
      ignoreRulesBelow_congr hcontent hdomain _ rest hnamed.2.2]

end

theorem joinAll_singleton {names : List String} (h : Path.Names names) (hne : names ≠ []) :
    Path.joinAll [Path.absolute names] = Path.absolute names := by
  have hfilter : [Path.absolute names].filter (· ≠ "") = [Path.absolute names] := by
    simp [Disk.absolute_ne_empty h hne]
  rw [Path.joinAll, hfilter]
  simp [Path.clean_absolute h]

theorem joinAll_absolute {names below : List String} (h : Path.Names names) (hne : names ≠ [])
    (hbelow : Path.Names below) (hbelowNe : below ≠ []) :
    Path.joinAll (Path.absolute names :: below) = Path.absolute (names ++ below) := by
  have hempty := Disk.absolute_ne_empty h hne
  have htext : "/".intercalate below ≠ "" := by
    intro hnil
    have hparts := hbelow.parts hbelowNe
    rw [hnil] at hparts
    have hmem : "" ∈ below := hparts ▸ (by decide : ("" : String) ∈ Path.parts "")
    exact (hbelow "" hmem).1.1 rfl
  have hfilter : (Path.absolute names :: below).filter (· ≠ "") = Path.absolute names :: below :=
    List.filter_eq_self.mpr fun s hs => decide_eq_true <| by
      rcases List.mem_cons.mp hs with rfl | hs
      · exact hempty
      · exact (hbelow s hs).1.1
  have htwo : [Path.absolute names, "/".intercalate below].filter (· ≠ "") =
      [Path.absolute names, "/".intercalate below] := by simp [hempty, htext]
  have hsame : "/".intercalate (Path.absolute names :: below) =
      "/".intercalate [Path.absolute names, "/".intercalate below] := by
    obtain ⟨first, rest, rfl⟩ := List.exists_cons_of_ne_nil hbelowNe
    rw [String.intercalate_cons_cons, String.intercalate_cons_cons, String.intercalate_singleton]
  rw [← Path.join_absolute h hbelow hbelowNe, Path.join, Path.joinAll, Path.joinAll, hfilter, htwo, hsame]
  rfl

section Rules

variable {d : Disk} {r e : List String} {top entries : List (String × Node)} (h : Repository d r top)
include h

/-- **The rules of a repository** are those in its tree. -/
theorem ignoreRulesIn_absolute : ignoreRulesIn d (Path.absolute r) = rulesIn (.dir top) := by
  have hfind : d.find .follow (Path.joinAll [Path.absolute r]) = .ok (.dir top) := by
    rw [joinAll_singleton h.names h.ne_nil]
    exact (Disk.find_absolute h.linkless h.names h.ne_nil).mpr h.dir
  have hcontent : ∀ names, Path.Names names → names ≠ [] →
      (d.read (Path.joinAll (Path.absolute r :: names))).toOption = (Node.dir top).content? names := by
    intro names hnames hne
    rw [joinAll_absolute h.names h.ne_nil hnames hne,
      Disk.read_absolute h.linkless (h.names.append hnames) (by simp [hne]), Node.content?, h.at?_append]
    rfl
  unfold ignoreRulesIn rulesIn
  simp only [hfind]
  exact readIgnoreRules_congr hcontent (fun s hs => absurd hs List.not_mem_nil) (.dir top) h.named_top

theorem rulesFor_absolute {cfg : Config} (hpatterns : cfg.exclude.patterns.items = [])
    (hgitignore : cfg.exclude.gitignore = true) (hsub : Subdirectory top e entries) :
    rulesFor cfg d (Path.absolute (r ++ e)) = rulesIn (.dir top) := by
  rw [rulesFor, hpatterns, if_pos hgitignore, findGitRoot_absolute h hsub, Option.getD_some,
    ignoreRulesIn_absolute h]
  rfl

end Rules

/-! ## Rules from two ends -/

theorem below?_nil {path : List String} (hne : path ≠ []) : IgnoreRule.below? [] path = some path := by
  obtain ⟨name, rest, rfl⟩ := List.exists_cons_of_ne_nil hne
  rfl

/-- A rule about one name, for paths from the top, says the same of a path below names that it does not mean. -/
theorem verdict?_append {rule : IgnoreRule} {p : String} (hdomain : rule.domain = []) (hpattern : rule.pattern = [p])
    {e names : List String} (he : ∀ name ∈ e, Wildcard.accepts p name = false) (hne : names ≠ []) (isDir : Bool) :
    rule.verdict? (e ++ names) isDir = rule.verdict? names isDir := by
  have hdrop : (e ++ names).dropWhile (fun name => !Wildcard.accepts p name) =
      names.dropWhile fun name => !Wildcard.accepts p name :=
    List.dropWhile_append_of_pos fun name hname => by simp [he name hname]
  unfold IgnoreRule.verdict?
  rw [hdomain, below?_nil (by simp [hne]), below?_nil hne]
  simp only [hpattern, IgnoreRule.matchesName, hdrop]

/-- Such a rule means a directory if it means one of the names of its path. -/
theorem verdict?_of_accepts {rule : IgnoreRule} {p name : String} (hdomain : rule.domain = [])
    (hpattern : rule.pattern = [p]) {e : List String} (hmem : name ∈ e) (haccepts : Wildcard.accepts p name = true) :
    rule.verdict? e true = some (!rule.takesIn) := by
  have hne : e ≠ [] := List.ne_nil_of_mem hmem
  have hdrop : e.dropWhile (fun name => !Wildcard.accepts p name) ≠ [] := by
    intro hnil
    have hnot := List.dropWhile_eq_nil_iff.mp hnil name hmem
    simp [haccepts] at hnot
  have hmatches : IgnoreRule.matchesName p rule.dirOnly true e = true := by
    unfold IgnoreRule.matchesName
    split
    · exact absurd ‹_› hdrop
    · simp
    · rfl
  unfold IgnoreRule.verdict?
  rw [hdomain, below?_nil hne]
  simp [hpattern, hmatches]

/-- The rule is about one name, for paths from the top. If it takes something in, it means none of `e`. -/
def IsPlain (e : List String) (rule : IgnoreRule) : Prop :=
  rule.domain = [] ∧ ∃ p, rule.pattern = [p] ∧ (rule.takesIn = true → ∀ name ∈ e, Wildcard.accepts p name = false)

theorem verdict?_of_forall_not {rule : IgnoreRule} {p : String} (hdomain : rule.domain = []) (hpattern : rule.pattern = [p])
    {e : List String} (he : ∀ name ∈ e, Wildcard.accepts p name = false) (isDir : Bool) :
    rule.verdict? e isDir = none := by
  unfold IgnoreRule.verdict?
  rw [hdomain]
  by_cases hnil : e = []
  · rw [hnil]
    rfl
  · have hdrop : e.dropWhile (fun name => !Wildcard.accepts p name) = [] :=
      List.dropWhile_eq_nil_iff.mpr fun name hname => by simp [he name hname]
    rw [below?_nil hnil]
    simp [hpattern, IgnoreRule.matchesName, hdrop]

/-- A plain rule leaves the directory `e` out or says nothing about it. -/
theorem IsPlain.verdict? {e : List String} {rule : IgnoreRule} (h : IsPlain e rule) :
    rule.verdict? e true = none ∨ rule.verdict? e true = some true := by
  obtain ⟨hdomain, p, hpattern, htakes⟩ := h
  by_cases hmeans : ∃ name ∈ e, Wildcard.accepts p name = true
  · obtain ⟨name, hname, haccepts⟩ := hmeans
    have htake : rule.takesIn = false := by
      by_contra htake
      rw [htakes (by simpa using htake) name hname] at haccepts
      exact Bool.false_ne_true haccepts
    exact .inr (by rw [verdict?_of_accepts hdomain hpattern hname haccepts, htake]; rfl)
  · exact .inl (verdict?_of_forall_not hdomain hpattern (fun name hname => by
      simpa using fun haccepts => hmeans ⟨name, hname, haccepts⟩) true)

/-- Plain rules that do not leave the directory `e` out mean none of its names. -/
theorem IsPlain.not_accepts {rules : List IgnoreRule} {e : List String} (hplain : ∀ rule ∈ rules, IsPlain e rule)
    (hopen : isIgnored rules e true = false) {rule : IgnoreRule} (hrule : rule ∈ rules) {p : String}
    (hpattern : rule.pattern = [p]) : ∀ name ∈ e, Wildcard.accepts p name = false := by
  intro name hname
  obtain ⟨hdomain, p', hpattern', htakes⟩ := hplain rule hrule
  obtain rfl : p = p' := by simpa [hpattern] using hpattern'
  by_contra haccepts
  have hverdict := verdict?_of_accepts hdomain hpattern hname (by simpa using haccepts)
  cases hlast : rules.reverse.findSome? (fun rule => rule.verdict? e true) with
  | none =>
    rw [List.findSome?_eq_none_iff.mp hlast rule (List.mem_reverse.mpr hrule)] at hverdict
    cases hverdict
  | some left =>
    -- the rule that decides is plain too, so it leaves the directory out
    obtain ⟨last, hmem, hlastVerdict⟩ := List.exists_of_findSome?_eq_some hlast
    rcases (hplain last (List.mem_reverse.mp hmem)).verdict? with hnone | hsome
    · rw [hnone] at hlastVerdict
      cases hlastVerdict
    · rw [hsome, Option.some_inj] at hlastVerdict
      rw [isIgnored, hlast, ← hlastVerdict] at hopen
      cases hopen

/-- **Plain rules say the same from both ends**, if they do not leave out the directory between. -/
theorem isIgnored_append {rules : List IgnoreRule} {e : List String} (hplain : ∀ rule ∈ rules, IsPlain e rule)
    (hopen : isIgnored rules e true = false) {names : List String} (hne : names ≠ []) (isDir : Bool) :
    isIgnored rules (e ++ names) isDir = isIgnored rules names isDir := by
  have hverdict : ∀ rule ∈ rules.reverse, rule.verdict? (e ++ names) isDir = rule.verdict? names isDir := by
    intro rule hrule
    rw [List.mem_reverse] at hrule
    obtain ⟨hdomain, p, hpattern, -⟩ := hplain rule hrule
    exact verdict?_append hdomain hpattern (IsPlain.not_accepts hplain hopen hrule hpattern) hne isDir
  unfold isIgnored
  rw [← List.head?_filterMap, ← List.head?_filterMap, List.filterMap_congr hverdict]

/-! ## Scans from two ends -/

theorem realRoot_absolute {d : Disk} (hlinkless : d.root.Linkless) {names : List String} (hnames : Path.Names names)
    (hne : names ≠ []) {entries : List (String × Node)} (hdir : d.root.at? names = some (.dir entries)) :
    RealRoot d (Path.absolute names) names entries := by
  have hfollow := Disk.place_absolute hlinkless hnames hne hdir .follow
  refine ⟨Disk.place_absolute hlinkless hnames hne hdir .keep, hdir, hne, ?_, ?_⟩
  · rw [Path.clean_absolute hnames, hfollow]
  · rw [Path.abs_absolute hnames, hfollow]

section Ends

variable {s s' : Rules} {e : List String} (hconfig : s.config = s'.config) (hincludes : s.includes = [])
  (hincludes' : s'.includes = [])
  (hignore : ∀ names, names ≠ [] → ∀ isDir, isIgnored s.ignore (e ++ names) isDir = isIgnored s'.ignore names isDir)

include hconfig hignore in
theorem enters_append_iff {names : List String} (hne : names ≠ []) : s.Enters (e ++ names) ↔ s'.Enters names := by
  have hlast : (e ++ names).getLast? = names.getLast? := List.getLast?_append_of_ne_nil e hne
  constructor
  · rintro ⟨hnamed, hkept⟩
    rw [hlast, hconfig] at hnamed
    exact ⟨hnamed, hignore names hne true ▸ hkept⟩
  · rintro ⟨hnamed, hkept⟩
    refine ⟨?_, (hignore names hne true).trans hkept⟩
    rw [hlast, hconfig]
    exact hnamed

include hconfig hincludes hincludes' hignore in
theorem takes_append_iff {names : List String} (hne : names ≠ []) : s.Takes (e ++ names) ↔ s'.Takes names := by
  have hlast : (e ++ names).getLast? = names.getLast? := List.getLast?_append_of_ne_nil e hne
  constructor
  · rintro ⟨hextension, hkept, -⟩
    rw [hlast, hconfig] at hextension
    exact ⟨hextension, hignore names hne false ▸ hkept, .inl hincludes'⟩
  · rintro ⟨hextension, hkept, -⟩
    refine ⟨?_, (hignore names hne false).trans hkept, .inl hincludes⟩
    rw [hlast, hconfig]
    exact hextension

include hconfig hincludes hincludes' hignore in
/-- **The candidates below a directory** are those of a scan from the top, if it gets there and there are no
links. -/
theorem candidate_append_iff {place place' : List String} {n m leaf : Node} {names : List String}
    (hm : n.at? e = some m) (hdir : m.isDir = true) (hlinkless : n.Linkless)
    (hopen : ∀ dir, dir ≠ [] → dir <+: e → s.Enters dir) :
    s.Candidate place [] n (e ++ names) leaf ↔ s'.Candidate place' [] m names leaf := by
  have hfound : n.at? (e ++ names) = m.at? names := by
    rw [Node.at?_append, hm]
    rfl
  have hnotLink : n.at? (e ++ names) = some leaf → leaf.isLink = false := by
    intro hat
    cases leaf with
    | link target => exact absurd hat (hlinkless _ target)
    | file t => rfl
    | dir below => rfl
  have hne : ∀ {leaf : Node}, leaf.isDir = false → m.at? names = some leaf → names ≠ [] := by
    rintro leaf hleaf hat rfl
    cases hat
    rw [hdir] at hleaf
    cases hleaf
  constructor
  · intro h
    have hnames := hne h.notDir (hfound ▸ h.found)
    refine ⟨hfound ▸ h.found, h.notDir, fun dir hstarts hproper hstart => ?_, ?_, fun hlink => ?_⟩
    · have hentered := h.entered (e ++ dir) ((List.prefix_append_right_inj e).mpr hstarts) (by simpa using hproper)
        (by simpa using fun _ => hstart)
      exact (enters_append_iff hconfig hignore hstart).mp hentered
    · exact (takes_append_iff hconfig hincludes hincludes' hignore hnames).mp h.taken
    · rw [hnotLink h.found] at hlink
      cases hlink
  · intro h
    have hnames := hne h.notDir h.found
    refine ⟨hfound ▸ h.found, h.notDir, fun dir hstarts hproper hstart => ?_, ?_, fun hlink => ?_⟩
    · -- a directory on the way lies above `e`, or at it, or below it
      rcases List.prefix_or_prefix_of_prefix hstarts (List.prefix_append e names) with habove | ⟨below, rfl⟩
      · exact hopen dir hstart habove
      by_cases hbelow : below = []
      · rw [hbelow, List.append_nil, List.nil_append] at hstart ⊢
        exact hopen e hstart List.prefix_rfl
      · exact (enters_append_iff hconfig hignore hbelow).mpr <|
          h.entered below ((List.prefix_append_right_inj e).mp hstarts) (by simpa using hproper) hbelow
    · exact (takes_append_iff hconfig hincludes hincludes' hignore hnames).mpr h.taken
    · rw [hnotLink (hfound ▸ h.found)] at hlink
      cases hlink

end Ends

theorem along_absolute {names below : List String} (h : Path.Names names) (hbelow : Path.Names below) :
    Path.along (Path.absolute names) below = Path.absolute (names ++ below) := by
  by_cases hnil : below = []
  · rw [hnil, List.append_nil]
    rfl
  · rw [Path.along_eq_join hbelow hnil, Path.join_absolute h hbelow hnil]

section Below

variable {d : Disk} {r e : List String} {top entries : List (String × Node)} {cfg : Config}

theorem mem_filter_iff (h : Repository d r top) (hsub : Subdirectory top e entries) {s s' : Rules}
    {files below : List String} (hs : s.root = Path.absolute r) (hs' : s'.root = Path.absolute (r ++ e))
    (hfiles : Finds s r [] (.dir top) files) (hbelow : Finds s' (r ++ e) [] (.dir entries) below)
    (hcandidate : ∀ names leaf, s.Candidate r [] (.dir top) (e ++ names) leaf ↔
      s'.Candidate (r ++ e) [] (.dir entries) names leaf) (path : String) :
    path ∈ below ↔ path ∈ files ∧ (r ++ e).isPrefixOf (Path.segments path) = true := by
  have hnames := h.names_below hsub.found
  have hwell := h.named_top.of_at? hsub.found
  rw [hfiles.mem_iff, hbelow.mem_iff]
  constructor
  · rintro ⟨names, leaf, hleaf, rfl⟩
    have hleafNames := hwell.names hleaf.found
    have hpath : Path.absolute (r ++ (e ++ names)) = Path.along s'.root ([] ++ names) := by
      rw [hs', List.nil_append, along_absolute (h.names.append hnames) hleafNames, List.append_assoc]
    refine ⟨⟨e ++ names, leaf, (hcandidate names leaf).mpr hleaf, ?_⟩, ?_⟩
    · rw [← hpath, hs, List.nil_append, along_absolute h.names (hnames.append hleafNames)]
    · rw [← hpath, Path.segments_absolute (h.names.append (hnames.append hleafNames)), List.isPrefixOf_iff_prefix,
        ← List.append_assoc]
      exact List.prefix_append _ _
  · rintro ⟨⟨names, leaf, hleaf, rfl⟩, hstarts⟩
    have hleafNames := h.names_below hleaf.found
    rw [hs, List.nil_append, along_absolute h.names hleafNames, Path.segments_absolute (h.names.append hleafNames),
      List.isPrefixOf_iff_prefix, List.prefix_append_right_inj] at hstarts
    obtain ⟨rest, rfl⟩ := hstarts
    have hrest : Path.Names rest := fun s hs => hleafNames s (List.mem_append_right _ hs)
    refine ⟨rest, leaf, (hcandidate rest leaf).mp hleaf, ?_⟩
    rw [hs, hs', List.nil_append, List.nil_append, along_absolute h.names hleafNames,
      along_absolute (h.names.append hnames) hrest, List.append_assoc]

/-- A scan at or below a repository sorts what the rules of the repository leave. -/
theorem scanDir_of_collect (h : Repository d r top) (hsub : Subdirectory top e entries)
    (hgitignore : cfg.exclude.gitignore = true) (hpatterns : cfg.exclude.patterns.items = [])
    (hincludes : cfg.scan.includeGlobs.items = []) {found : List String}
    (hcollect : collect ⟨cfg, d, Path.absolute (r ++ e), Path.absolute (r ++ e), rulesIn (.dir top), []⟩
      (Path.absolute (r ++ e)) (Path.base (Path.absolute (r ++ e))) (.dir entries) = .ok found) :
    ∃ later, (new cfg).scanDir d (Path.absolute (r ++ e)) = .ok (sortStrings found, later) := by
  have hnames := h.names.append (h.names_below hsub.found)
  have hdir : d.root.at? (r ++ e) = some (.dir entries) := by rw [h.at?_append, hsub.found]
  have hroot := realRoot_absolute h.linkless hnames (by simp [h.ne_nil]) hdir
  have hglobs : globs cfg.scan.includeGlobs.items = .ok [] := by rw [hincludes]; rfl
  refine ⟨_, scanDir_eq (hroot.evalLinks h.cwd) hglobs hroot.find ?_⟩
  rw [hroot.openedRoot rfl rfl (h.named_top.of_at? hsub.found), new, rulesOf,
    rulesFor_absolute h hpatterns hgitignore hsub]
  exact hcollect

/-- The scans of both directories, as far as the rules say the same from both ends. -/
theorem exists_scanDir_below (h : Repository d r top) (hsub : Subdirectory top e entries)
    (hgitignore : cfg.exclude.gitignore = true) (hpatterns : cfg.exclude.patterns.items = [])
    (hincludes : cfg.scan.includeGlobs.items = [])
    (hopen : ∀ dir, dir ≠ [] → dir <+: e → (∀ name, dir.getLast? = some name → name ∉ cfg.exclude.dirs.items) ∧
      isIgnored (rulesIn (.dir top)) dir true = false)
    (hsame : ∀ names, names ≠ [] → ∀ isDir,
      isIgnored (rulesIn (.dir top)) (e ++ names) isDir = isIgnored (rulesIn (.dir top)) names isDir) :
    ∃ files later below later', (new cfg).scanDir d (Path.absolute r) = .ok (files, later) ∧
      (new cfg).scanDir d (Path.absolute (r ++ e)) = .ok (below, later') ∧
      below = files.filter fun path => (r ++ e).isPrefixOf (Path.segments path) := by
  have hnames := h.names_below hsub.found
  have hglobs : globs cfg.scan.includeGlobs.items = .ok [] := by rw [hincludes]; rfl
  have hanswer : Answer [] := fun g hg => absurd hg List.not_mem_nil
  have htop : Subdirectory top [] top := ⟨rfl, fun dir hdir hstarts => absurd (List.prefix_nil.mp hstarts) hdir⟩
  have hdir : d.root.at? (r ++ e) = some (.dir entries) := by rw [h.at?_append, hsub.found]
  obtain ⟨files, hfiles, hscan⟩ := exists_scanDir (new cfg) h.cwd
    (realRoot_absolute h.linkless h.names h.ne_nil h.dir) h.named_top hglobs hanswer
  obtain ⟨below, hbelow, hscan'⟩ := exists_scanDir (new cfg) h.cwd
    (realRoot_absolute h.linkless (h.names.append hnames) (by simp [h.ne_nil]) hdir)
    (h.named_top.of_at? hsub.found) hglobs hanswer
  have hrules : rulesFor cfg d (Path.absolute r) = rulesIn (.dir top) := by
    have hrules := rulesFor_absolute h hpatterns hgitignore htop
    rwa [List.append_nil] at hrules
  have hrules' := rulesFor_absolute h hpatterns hgitignore hsub
  have hlinkless : (Node.dir top).Linkless := fun place target hat =>
    h.linkless (r ++ place) target (by rw [h.at?_append, hat])
  have hcandidate : ∀ names leaf, (rulesOf cfg d (Path.absolute r) r []).Candidate r [] (.dir top) (e ++ names) leaf ↔
      (rulesOf cfg d (Path.absolute (r ++ e)) (r ++ e) []).Candidate (r ++ e) [] (.dir entries) names leaf := by
    intro names leaf
    have hconfig : (rulesOf cfg d (Path.absolute r) r []).config =
      (rulesOf cfg d (Path.absolute (r ++ e)) (r ++ e) []).config := rfl
    refine candidate_append_iff hconfig rfl rfl ?_ hsub.found rfl hlinkless fun dir hne hstarts => ?_
    · intro names hne isDir
      rw [rulesOf, rulesOf, hrules, hrules']
      exact hsame names hne isDir
    · obtain ⟨hnamed, hkept⟩ := hopen dir hne hstarts
      exact ⟨hnamed, by rw [rulesOf, hrules, hkept]⟩
  refine ⟨_, _, _, _, hscan, hscan', ?_⟩
  refine (sortStrings_strict hbelow.nodup).eq_of_mem_iff ((sortStrings_strict hfiles.nodup).filter _) fun path => ?_
  rw [mem_sortStrings, List.mem_filter, mem_sortStrings]
  exact mem_filter_iff h hsub rfl rfl hfiles hbelow hcandidate path

/-- **A scan of the directory below finds what lies in it**, if the rules of the repository are about plain names
and none of them takes a directory between in. -/
theorem scanDir_below (h : Repository d r top) (hsub : Subdirectory top e entries)
    (hgitignore : cfg.exclude.gitignore = true) (hpatterns : cfg.exclude.patterns.items = [])
    (hincludes : cfg.scan.includeGlobs.items = [])
    (hopen : ∀ dir, dir ≠ [] → dir <+: e → (∀ name, dir.getLast? = some name → name ∉ cfg.exclude.dirs.items) ∧
      isIgnored (rulesIn (.dir top)) dir true = false)
    (hplain : ∀ rule ∈ rulesIn (.dir top), IsPlain e rule) :
    ∃ files later below later', (new cfg).scanDir d (Path.absolute r) = .ok (files, later) ∧
      (new cfg).scanDir d (Path.absolute (r ++ e)) = .ok (below, later') ∧
      below = files.filter fun path => (r ++ e).isPrefixOf (Path.segments path) := by
  refine exists_scanDir_below h hsub hgitignore hpatterns hincludes hopen fun names hne isDir => ?_
  by_cases hnil : e = []
  · rw [hnil, List.nil_append]
  · exact isIgnored_append hplain (hopen e hnil List.prefix_rfl).2 hne isDir

end Below

section Plain

/-- A directory of a project, with scripts that are made by a tool. -/
def webEntries : List (String × Node) :=
  [("app.js", .file []), ("app.min.js", .file []), ("build", .dir [("old.js", .file [])]),
    ("lib", .dir [("z.js", .file []), ("z.min.js", .file [])])]

/-- A project with rules about plain names. -/
def webProject : List (String × Node) :=
  [(".git", .dir []), (".gitignore", .file (Bytes.ofString "build\n*.min.js\n!app.min.js\n")),
    ("web", .dir webEntries)]

/-- A home that holds a project. -/
def homeOf (project : List (String × Node)) : Disk := ⟨.dir [("r", .dir project)], "/"⟩

/-- The ignore files of a repository are used, and nothing else. -/
def trackedOnly : Config :=
  { Config.default with exclude := { Config.default.exclude with patterns := none, gitignore := true } }

theorem rulesIn_webProject : rulesIn (.dir webProject) =
    [⟨[], ["build"], false, false⟩, ⟨[], ["*.min.js"], false, false⟩, ⟨[], ["app.min.js"], true, false⟩] := by
  decide +kernel

theorem linkless_webProject : (Node.dir webProject).Linkless := by
  have hbuild : (Node.dir [("old.js", .file [])]).Linkless := Node.linkless_dir (by simp [Node.linkless_file])
  have hlib : (Node.dir [("z.js", .file []), ("z.min.js", .file [])]).Linkless :=
    Node.linkless_dir (by simp [Node.linkless_file])
  have hweb : (Node.dir webEntries).Linkless :=
    Node.linkless_dir (by simp [webEntries, Node.linkless_file, hbuild, hlib])
  exact Node.linkless_dir (by simp [webProject, Node.linkless_file, Node.linkless_dir_nil, hweb])

theorem repository_homeOf {project : List (String × Node)} {below : List (String × Node)}
    (hgit : project.lookup ".git" = some (.dir below)) (hlinkless : (Node.dir project).Linkless)
    (hnamed : (Node.dir project).WellNamed) : Repository (homeOf project) ["r"] project := by
  have habs : Path.isAbs "/" = true := by decide
  refine ⟨habs, Node.linkless_dir (by simpa using hlinkless), ?_, List.cons_ne_nil _ _, rfl, below, hgit⟩
  rw [homeOf, Node.WellNamed, WellNamedEntries, WellNamedEntries]
  exact ⟨by simp, by simp [Path.IsName], hnamed, trivial⟩

theorem repository_webProject : Repository (homeOf webProject) ["r"] webProject :=
  repository_homeOf rfl linkless_webProject
    (by simp [webProject, webEntries, Node.WellNamed, WellNamedEntries, Path.IsName])

theorem eq_of_starts_singleton {dir : List String} {name : String} (hne : dir ≠ []) (h : dir <+: [name]) :
    dir = [name] := by
  rcases List.prefix_cons_iff.mp h with rfl | ⟨rest, rfl, hrest⟩
  · exact absurd rfl hne
  · rw [List.prefix_nil.mp hrest]

theorem scanDir_below_web : ∃ files later below later',
    (new trackedOnly).scanDir (homeOf webProject) (Path.absolute ["r"]) = .ok (files, later) ∧
      (new trackedOnly).scanDir (homeOf webProject) (Path.absolute (["r"] ++ ["web"])) = .ok (below, later') ∧
      below = files.filter fun path => (["r"] ++ ["web"]).isPrefixOf (Path.segments path) := by
  have hsub : Subdirectory webProject ["web"] webEntries := by
    refine ⟨rfl, fun dir hdir hstarts below => ?_⟩
    rw [eq_of_starts_singleton hdir hstarts]
    exact fun hat => by cases hat
  refine scanDir_below repository_webProject hsub rfl rfl rfl (fun dir hdir hstarts => ?_) ?_
  · rw [eq_of_starts_singleton hdir hstarts, rulesIn_webProject]
    refine ⟨fun name hname => ?_, by decide⟩
    cases hname
    decide
  · rw [rulesIn_webProject]
    intro rule hrule
    obtain rfl | rfl | rfl : rule = ⟨[], ["build"], false, false⟩ ∨ rule = ⟨[], ["*.min.js"], false, false⟩ ∨
        rule = ⟨[], ["app.min.js"], true, false⟩ := by simpa using hrule
    · exact ⟨rfl, "build", rfl, fun h => absurd h Bool.false_ne_true⟩
    · exact ⟨rfl, "*.min.js", rfl, fun h => absurd h Bool.false_ne_true⟩
    · exact ⟨rfl, "app.min.js", rfl, fun _ => by decide⟩

end Plain

/-! ## An anchored rule -/

section Anchored

/-- A directory that holds a file named like one at the top. -/
def subEntries : List (String × Node) := [("gen.js", .file []), ("keep.js", .file [])]

/-- A project that leaves one file at its top out. -/
def anchoredProject : List (String × Node) :=
  [(".git", .dir []), (".gitignore", .file (Bytes.ofString "/gen.js\n")), ("sub", .dir subEntries)]

theorem rulesIn_anchoredProject : rulesIn (.dir anchoredProject) = [⟨[], ["", "gen.js"], false, false⟩] := by
  decide +kernel

theorem repository_anchoredProject : Repository (homeOf anchoredProject) ["r"] anchoredProject := by
  have hsub : (Node.dir subEntries).Linkless := Node.linkless_dir (by simp [subEntries, Node.linkless_file])
  refine repository_homeOf rfl ?_ ?_
  · exact Node.linkless_dir (by simp [anchoredProject, Node.linkless_file, Node.linkless_dir_nil, hsub])
  · simp [anchoredProject, subEntries, Node.WellNamed, WellNamedEntries, Path.IsName]

theorem subdirectory_anchoredProject : Subdirectory anchoredProject ["sub"] subEntries := by
  refine ⟨rfl, fun dir hdir hstarts below => ?_⟩
  rw [eq_of_starts_singleton hdir hstarts]
  exact fun hat => by cases hat

/-- **A rule that is anchored to the top** means a file at the top alone. The scan from the top finds a file of
that name further down, and the scan of its directory leaves the file out. -/
theorem scanDir_anchored :
    Repository (homeOf anchoredProject) ["r"] anchoredProject ∧ Subdirectory anchoredProject ["sub"] subEntries ∧
    "sub" ∉ trackedOnly.exclude.dirs.items ∧ isIgnored (rulesIn (.dir anchoredProject)) ["sub"] true = false ∧
    (∃ later, (new trackedOnly).scanDir (homeOf anchoredProject) "/r" =
      .ok (["/r/sub/gen.js", "/r/sub/keep.js"], later)) ∧
    ∃ later, (new trackedOnly).scanDir (homeOf anchoredProject) "/r/sub" = .ok (["/r/sub/keep.js"], later) := by
  have hrepository := repository_anchoredProject
  have hsubdirectory := subdirectory_anchoredProject
  have htop : Subdirectory anchoredProject [] anchoredProject :=
    ⟨rfl, fun dir hdir hstarts => absurd (List.prefix_nil.mp hstarts) hdir⟩
  have hpath : Path.absolute (["r"] ++ []) = "/r" := by decide
  have hpath' : Path.absolute (["r"] ++ ["sub"]) = "/r/sub" := by decide
  refine ⟨hrepository, hsubdirectory, by decide, by decide +kernel, ?_, ?_⟩
  · have hcollect : collect ⟨trackedOnly, homeOf anchoredProject, "/r", "/r", rulesIn (.dir anchoredProject), []⟩
        "/r" (Path.base "/r") (.dir anchoredProject) = .ok ["/r/sub/gen.js", "/r/sub/keep.js"] := by
      rw [rulesIn_anchoredProject]
      decide +kernel
    have hsort : sortStrings ["/r/sub/gen.js", "/r/sub/keep.js"] = ["/r/sub/gen.js", "/r/sub/keep.js"] := by cbv
    have hscan := scanDir_of_collect hrepository htop rfl rfl rfl (hpath ▸ hcollect)
    rwa [hpath, hsort] at hscan
  · have hcollect : collect ⟨trackedOnly, homeOf anchoredProject, "/r/sub", "/r/sub", rulesIn (.dir anchoredProject), []⟩
        "/r/sub" (Path.base "/r/sub") (.dir subEntries) = .ok ["/r/sub/keep.js"] := by
      rw [rulesIn_anchoredProject]
      decide +kernel
    have hsort : sortStrings ["/r/sub/keep.js"] = ["/r/sub/keep.js"] := List.mergeSort_singleton _
    have hscan := scanDir_of_collect hrepository hsubdirectory rfl rfl rfl (hpath' ▸ hcollect)
    rwa [hpath', hsort] at hscan

end Anchored

end ScriptSplit.Scanner
