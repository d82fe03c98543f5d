import Mathlib
import ScriptSplit.Config.Writing
import ScriptSplit.Proofs.Config.Loading
import ScriptSplit.Proofs.Format.Toml.Section

/-!
# Settings that were written

The text of settings is read back as a document with one table for each group, and a list of tables
for the modules. Laid over the defaults it gives the settings again.

* `Config.document`: what the text of settings says; **`Config.read?_tomlText`**.
* `Config.follows_document`, `Config.document_shape`: the document sets every setting, in its shape.
* `Config.filled`: the same settings with empty lists in place of missing ones.
* **`Config.load_written`**: settings that pass their check are loaded from their text.
-/

namespace ScriptSplit

open Toml (Section Field Tree addSection IsComment notMem_toList_ofList)

/-! ## Documents of sections -/

namespace Toml

/-- What a section says. -/
def Section.toDatum (s : Section) : Datum := .table (s.fields.map fun f => (f.key, f.value.toDatum))

theorem toDatum_table (s : Section) : s.table.toDatum = s.toDatum := by
  rw [Section.table, Tree.toDatum, Tree.entriesToData_eq, Section.entries, List.map_map]
  rfl

theorem foldl_tables (entries : List (String × Tree)) {sections : List Section}
    (hplain : ∀ s ∈ sections, s.inList = false) (hnames : (entries.map Prod.fst ++ sections.map Section.name).Nodup) :
    sections.foldl addSection entries = entries ++ sections.map fun s => (s.name, s.table) := by
  induction sections generalizing entries with
  | nil => simp
  | cons s sections ih =>
    rw [List.forall_mem_cons] at hplain
    have hnew : entries.lookup s.name = none := by
      rw [isNone_lookup_iff]
      exact fun p hp heq => (List.nodup_append.mp hnames).2.2 p.1 (List.mem_map_of_mem hp) s.name (by simp) heq
    have hadd : addSection entries s = entries ++ [(s.name, s.table)] := by
      rw [addSection, Section.front, if_neg (by simp [hplain.1]), setEntry_new hnew]
      rfl
    rw [List.foldl_cons, hadd, ih _ hplain.2 (by simpa using hnames)]
    simp

theorem foldl_items {name : String} {sections : List Section} {entries : List (String × Tree)} {items : List Tree}
    (hlist : ∀ s ∈ sections, s.inList = true ∧ s.name = name) :
    sections.foldl addSection (Tree.setEntry name (.tables items) entries) =
      Tree.setEntry name (.tables (items ++ sections.map Section.table)) entries := by
  induction sections generalizing items with
  | nil => simp
  | cons s sections ih =>
    rw [List.forall_mem_cons] at hlist
    obtain ⟨⟨hs, rfl⟩, hlist⟩ := hlist
    have hadd : addSection (Tree.setEntry s.name (.tables items) entries) s =
        Tree.setEntry s.name (.tables (items ++ [s.table])) entries := by
      rw [addSection, Section.front, if_pos hs, listed, lookup_setEntry, if_pos rfl, setEntry_setEntry]
      rfl
    rw [List.foldl_cons, hadd, ih hlist]
    simp

/-- A list of tables that is not empty becomes one entry. -/
theorem foldl_list (name : String) {sections : List Section} {entries : List (String × Tree)} (hne : sections ≠ [])
    (hlist : ∀ s ∈ sections, s.inList = true ∧ s.name = name) (hnew : entries.lookup name = none) :
    sections.foldl addSection entries = entries ++ [(name, .tables (sections.map Section.table))] := by
  obtain ⟨s, rest, rfl⟩ := List.exists_cons_of_ne_nil hne
  rw [List.forall_mem_cons] at hlist
  obtain ⟨⟨hs, rfl⟩, hlist⟩ := hlist
  have hadd : addSection entries s = Tree.setEntry s.name (.tables [s.table]) entries := by
    rw [addSection, Section.front, if_pos hs, listed, hnew]
    rfl
  rw [List.foldl_cons, hadd, foldl_items hlist, setEntry_new hnew]
  rfl

end Toml

namespace Config

/-! ## The document of settings -/

variable {c : Config}

/-- What a list of names says. -/
def namesDatum (l : Listing String) : Datum := .list (l.items.map .text)

/-- What a rule of the module table says. -/
def ruleDatum (m : ModuleRule) : Datum := .table [("keywords", namesDatum m.keywords), ("tag", .text m.tag)]

/-- What the text of settings says. -/
def document (c : Config) : Datum :=
  .table
    [("cache", .table [("dir", .text c.cache.dir), ("enabled", .bool c.cache.enabled), ("ttl", .int c.cache.ttl)]),
     ("classification", .table
       [("default_module", .text c.classification.defaultModule),
        ("fallback_policy", .text c.classification.fallbackPolicy)]),
     ("exclude", .table
       [("dirs", namesDatum c.exclude.dirs), ("gitignore", .bool c.exclude.gitignore),
        ("patterns", namesDatum c.exclude.patterns)]),
     ("modules", .list (c.modules.items.map ruleDatum)),
     ("output", .table [("color", .bool c.output.color), ("format", .text c.output.format)]),
     ("scan", .table
       [("extensions", namesDatum c.scan.extensions), ("include", namesDatum c.scan.includeGlobs),
        ("max_file_size", .int c.scan.maxFileSize), ("workers", .int c.scan.workers)]),
     ("symbols", .table
       [("globals", namesDatum c.symbols.globals), ("platform_api", namesDatum c.symbols.platformAPI)]),
     ("thresholds", .table
       [("complexity", .int c.thresholds.complexity), ("dependency_count", .int c.thresholds.dependencyCount),
        ("dependent_count", .int c.thresholds.dependentCount)])]

/-- The sections make up the document. -/
theorem toDatum_sections (hmodules : c.modules.items ≠ []) :
    (Tree.table false (c.sections.foldl addSection [])).toDatum = c.document := by
  have hrules : ∀ entries : List (String × Tree), entries.lookup "modules" = none →
      (c.modules.items.map ModuleRule.toSection).foldl addSection entries =
        entries ++ [("modules", .tables ((c.modules.items.map ModuleRule.toSection).map Section.table))] :=
    fun entries => Toml.foldl_list "modules" (by simpa using hmodules) (by simp [ModuleRule.toSection])
  rw [sections, List.foldl_append, List.foldl_append, Toml.foldl_tables [] (by simp) (by simp),
    hrules _ (by simp), Toml.foldl_tables _ (by simp) (by simp), Tree.toDatum, Tree.entriesToData_eq]
  simp only [List.map_append, List.map_cons, List.map_nil, Toml.toDatum_table, Tree.toDatum, Tree.itemsToData_eq,
    List.map_map]
  rfl

/-! ## Reading the text -/

/-- All strings of the settings. -/
def strings (c : Config) : List String :=
  textSettings.map (·.value c) ++ nameSettings.flatMap (fun s => (s.value c).items) ++
    c.modules.items.flatMap fun m => m.tag :: m.keywords.items

/-- The strings hold no character that the text of settings loses. -/
def Spared (c : Config) : Prop := ∀ s ∈ c.strings, ∀ x ∈ s.toList, Toml.Spared x

-- through lists: characters are finitely many, and the instance that counts them would be found first
instance (c : Config) : Decidable c.Spared :=
  decidable_of_iff (c.strings.all fun s => s.toList.all fun x => decide (Toml.Spared x)) (by simp [Spared])

/-- The numbers are words of 64 bits. -/
def InWords (c : Config) : Prop := ∀ s ∈ countSettings, Word64.fits (s.value c) = true

instance (c : Config) : Decidable c.InWords := inferInstanceAs (Decidable (∀ s ∈ countSettings, _))

theorem Spared.text (hc : c.Spared) : ∀ s ∈ textSettings, (Toml.Value.text (s.value c)).Fits := fun _ hs =>
  hc _ (List.mem_append_left _ (List.mem_append_left _ (List.mem_map_of_mem hs)))

theorem Spared.names (hc : c.Spared) : ∀ s ∈ nameSettings, (namesValue (s.value c)).Fits := fun _ hs _ hx =>
  hc _ (List.mem_append_left _ (List.mem_append_right _ (List.mem_flatMap_of_mem hs hx)))

theorem Spared.rule (hc : c.Spared) {m : ModuleRule} (hm : m ∈ c.modules.items) :
    (Toml.Value.text m.tag).Fits ∧ (namesValue m.keywords).Fits :=
  ⟨hc _ (List.mem_append_right _ (List.mem_flatMap_of_mem hm List.mem_cons_self)),
    fun _ hx => hc _ (List.mem_append_right _ (List.mem_flatMap_of_mem hm (List.mem_cons_of_mem _ hx)))⟩

theorem fits_counts (hvalid : c.faults = []) (hwords : c.InWords) :
    ∀ s ∈ countSettings, (Toml.Value.int (s.value c)).Fits := fun s hs =>
  ⟨nonneg_of_faults hvalid s hs, hwords s hs⟩

/-- The names of the sections, and the keys of their fields. -/
def sectionKeys : List String :=
  ["cache", "dir", "enabled", "ttl", "classification", "default_module", "fallback_policy", "exclude", "dirs",
   "gitignore", "patterns", "modules", "keywords", "tag", "output", "color", "format", "scan", "extensions",
   "include", "max_file_size", "workers", "symbols", "globals", "platform_api", "thresholds", "complexity",
   "dependency_count", "dependent_count"]

/-- The comments of the fields. -/
def fieldComments : List String :=
  ["hours", "default-bucket or inherit-from-dependency", "text, json, markdown, toon or yaml",
   "optional glob allow-list, relative to the root", "bytes, 0 = unlimited", "0 = number of CPUs",
   "0 disables the complexity rule"]

theorem isKey_sectionKeys : ∀ key ∈ sectionKeys, Toml.IsKey key.toList := by
  -- through lists, as for `Spared`
  have hall : (sectionKeys.all fun key => !key.toList.isEmpty && key.toList.all Toml.isBareChar) = true := by
    decide +kernel
  intro key hkey
  have hkey := List.all_eq_true.mp hall key hkey
  rwa [Bool.and_eq_true, Bool.not_eq_true', List.isEmpty_eq_false_iff, List.all_eq_true] at hkey

theorem fieldComments_oneLine : ∀ comment ∈ fieldComments, '\n' ∉ comment.toList := by
  simp only [fieldComments, List.forall_mem_cons]
  exact ⟨notMem_toList_ofList (by decide), notMem_toList_ofList (by decide), notMem_toList_ofList (by decide),
    notMem_toList_ofList (by decide), notMem_toList_ofList (by decide), notMem_toList_ofList (by decide),
    notMem_toList_ofList (by decide), by simp⟩

theorem fits_plain {key : String} {v : Toml.Value} (hkey : key ∈ sectionKeys) (hv : v.Fits) : (Field.plain key v).Fits :=
  ⟨isKey_sectionKeys key hkey, by simp [Field.plain], hv⟩

theorem fits_commented {key comment : String} {v : Toml.Value} (hkey : key ∈ sectionKeys)
    (hcomment : comment ∈ fieldComments) (hv : v.Fits) : Field.Fits ⟨key, comment, v⟩ :=
  ⟨isKey_sectionKeys key hkey, fieldComments_oneLine comment hcomment, hv⟩

theorem fits_section {name : String} {inList : Bool} {fields : List Field} (hname : name ∈ sectionKeys)
    (hdistinct : (fields.map Field.key).Nodup) (hfields : ∀ f ∈ fields, f.Fits) : Section.Fits ⟨name, inList, fields⟩ :=
  ⟨isKey_sectionKeys name hname, hfields, hdistinct⟩

/-- The sections can be read back. -/
theorem fits_sections (hvalid : c.faults = []) (hwords : c.InWords) (hspared : c.Spared) :
    ∀ s ∈ c.sections, s.Fits := by
  have hcounts := fits_counts hvalid hwords
  have htexts := hspared.text
  have hnames := hspared.names
  simp only [countSettings, textSettings, nameSettings, List.forall_mem_cons] at hcounts htexts hnames
  obtain ⟨hdependency, hdependent, hcomplexity, hsize, hworkers, httl, -⟩ := hcounts
  obtain ⟨hdefault, hfallback, hdir, hformat, -⟩ := htexts
  obtain ⟨hglobals, hplatform, hextensions, hinclude, hdirs, hpatterns, -⟩ := hnames
  have hflag : ∀ b, (Toml.Value.bool b).Fits := fun _ => trivial
  simp only [sections, List.forall_mem_append, List.forall_mem_cons, List.forall_mem_map]
  refine ⟨⟨⟨?cache, ?classification, ?exclude, by simp⟩, fun m hm => ?modules⟩, ?output, ?scan, ?symbols, ?thresholds,
    by simp⟩
  all_goals refine fits_section (by simp [sectionKeys]) (by simp [Field.plain]) ?_
  all_goals simp only [List.forall_mem_cons]
  case cache =>
    exact ⟨fits_plain (by simp [sectionKeys]) hdir, fits_plain (by simp [sectionKeys]) (hflag _),
      fits_commented (by simp [sectionKeys]) (by simp [fieldComments]) httl, by simp⟩
  case classification =>
    exact ⟨fits_plain (by simp [sectionKeys]) hdefault,
      fits_commented (by simp [sectionKeys]) (by simp [fieldComments]) hfallback, by simp⟩
  case exclude =>
    exact ⟨fits_plain (by simp [sectionKeys]) hdirs, fits_plain (by simp [sectionKeys]) (hflag _),
      fits_plain (by simp [sectionKeys]) hpatterns, by simp⟩
  case modules =>
    exact ⟨fits_plain (by simp [sectionKeys]) (hspared.rule hm).2,
      fits_plain (by simp [sectionKeys]) (hspared.rule hm).1, by simp⟩
  case output =>
    exact ⟨fits_plain (by simp [sectionKeys]) (hflag _),
      fits_commented (by simp [sectionKeys]) (by simp [fieldComments]) hformat, by simp⟩
  case scan =>
    exact ⟨fits_plain (by simp [sectionKeys]) hextensions,
      fits_commented (by simp [sectionKeys]) (by simp [fieldComments]) hinclude,
      fits_commented (by simp [sectionKeys]) (by simp [fieldComments]) hsize,
      fits_commented (by simp [sectionKeys]) (by simp [fieldComments]) hworkers, by simp⟩
  case symbols =>
    exact ⟨fits_plain (by simp [sectionKeys]) hglobals, fits_plain (by simp [sectionKeys]) hplatform, by simp⟩
  case thresholds =>
    exact ⟨fits_commented (by simp [sectionKeys]) (by simp [fieldComments]) hcomplexity,
      fits_plain (by simp [sectionKeys]) hdependency, fits_plain (by simp [sectionKeys]) hdependent, by simp⟩

/-- Two sections have one name only if they are modules. -/
theorem names_sections (c : Config) :
    c.sections.Pairwise fun s s' => s.name = s'.name → s.inList ∧ s'.inList := by
  have hrule : ∀ m : ModuleRule, m.toSection.name = "modules" ∧ m.toSection.inList = true := fun _ => ⟨rfl, rfl⟩
  simp only [sections, List.pairwise_append, List.pairwise_cons, List.pairwise_map, List.forall_mem_cons,
    List.forall_mem_append, List.forall_mem_map, hrule]
  simp [List.pairwise_iff_getElem]

theorem modules_ne_nil (hvalid : c.faults = []) : c.modules.items ≠ [] := by
  simp only [faults, List.append_eq_nil_iff, and_assoc] at hvalid
  obtain ⟨-, -, -, -, -, hmodules, -⟩ := hvalid
  intro h
  simp [h] at hmodules

/-- **The text of settings says their document**, below lines of comment. -/
theorem read?_tomlText {front : List Char} {text : String} (htext : text.toList = front ++ c.tomlText.toList)
    (hfront : IsComment front) (hvalid : c.faults = []) (hwords : c.InWords) (hspared : c.Spared) :
    Toml.read? (Bytes.ofString text) = some c.document := by
  rw [Toml.read?_sectionsText htext hfront (fits_sections hvalid hwords hspared) (names_sections c),
    toDatum_sections (modules_ne_nil hvalid)]

/-! ## The document sets every setting -/

/-- The same rule with an empty list of keywords in place of a missing one. -/
def filledRule (m : ModuleRule) : ModuleRule := ⟨m.tag, some m.keywords.items⟩

/-- The same settings with empty lists in place of missing ones. -/
def filled (c : Config) : Config where
  thresholds := c.thresholds
  symbols := ⟨some c.symbols.globals.items, some c.symbols.platformAPI.items⟩
  modules := some (c.modules.items.map filledRule)
  classification := c.classification
  scan := ⟨some c.scan.extensions.items, some c.scan.includeGlobs.items, c.scan.maxFileSize, c.scan.workers⟩
  exclude := ⟨some c.exclude.dirs.items, some c.exclude.patterns.items, c.exclude.gitignore⟩
  cache := c.cache
  output := c.output

theorem items_some {α : Type} (l : List α) : Listing.items (some l) = l := rfl

theorem moduleFaults_filled (i : Nat) (seen : List String) (rules : List ModuleRule) :
    moduleFaults i seen (rules.map filledRule) = moduleFaults i seen rules := by
  induction rules generalizing i seen with
  | nil => rfl
  | cons m rules ih =>
    rw [List.map_cons, moduleFaults, moduleFaults, ih, ih]
    rfl

/-- The check does not tell a missing list from an empty one. -/
theorem faults_filled (c : Config) : c.filled.faults = c.faults := by
  have htags : (c.modules.items.map filledRule).map ModuleRule.tag = c.modules.items.map ModuleRule.tag := by
    rw [List.map_map]
    rfl
  have hdefault : c.filled.defaultModuleFaults = c.defaultModuleFaults := by
    simp only [defaultModuleFaults, filled, items_some, htags, List.isEmpty_map]
  unfold faults
  rw [hdefault]
  simp only [filled, items_some, moduleFaults_filled, List.isEmpty_map]
  rfl

theorem saysNames_namesDatum (l : Listing String) : (namesDatum l).SaysNames (some l.items) :=
  ⟨l.items, rfl, rfl⟩

theorem saysRule_ruleDatum (m : ModuleRule) : (ruleDatum m).SaysRule (filledRule m) :=
  ⟨rfl, _, rfl, saysNames_namesDatum m.keywords⟩

/-- A setting that the file sets has the value of the file. -/
theorem given_of_at {α : Type} {s : Setting α} {reads : Datum → α → Prop} {base : Config} {d x : Datum} {v : α}
    (hx : d.at? s.place = some x) (hv : reads x v) : s.Given reads base d v := by
  refine ⟨fun y hy => ?_, fun h => ?_⟩
  · rw [hx, Option.some_inj] at hy
    exact hy ▸ hv
  · rw [hx] at h
    cases h

theorem word?_int {n : Int} (h : Word64.fits n = true) : (Datum.int n).word? = some n := by
  simp only [Word64.fits, Bool.and_eq_true, decide_eq_true_eq] at h
  simp only [Word64.least, Word64.greatest] at h
  simp only [Datum.word?, Word64.wrap, Word64.count, Option.some_inj, Int.bmod_def]
  split_ifs <;> omega

/-- **The document sets every setting.** -/
theorem follows_document (hwords : c.InWords) : Follows Datum.word? default c.document c.filled where
  counts := by
    simp only [InWords, countSettings, List.forall_mem_cons] at hwords ⊢
    obtain ⟨hdependency, hdependent, hcomplexity, hsize, hworkers, httl, -⟩ := hwords
    exact ⟨given_of_at rfl (word?_int hdependency), given_of_at rfl (word?_int hdependent),
      given_of_at rfl (word?_int hcomplexity), given_of_at rfl (word?_int hsize), given_of_at rfl (word?_int hworkers),
      given_of_at rfl (word?_int httl), by simp⟩
  texts := by
    simp only [textSettings, List.forall_mem_cons]
    exact ⟨given_of_at rfl rfl, given_of_at rfl rfl, given_of_at rfl rfl, given_of_at rfl rfl, by simp⟩
  flags := by
    simp only [flagSettings, List.forall_mem_cons]
    exact ⟨given_of_at rfl rfl, given_of_at rfl rfl, given_of_at rfl rfl, by simp⟩
  names := by
    simp only [nameSettings, List.forall_mem_cons]
    exact ⟨given_of_at rfl (saysNames_namesDatum _), given_of_at rfl (saysNames_namesDatum _),
      given_of_at rfl (saysNames_namesDatum _), given_of_at rfl (saysNames_namesDatum _),
      given_of_at rfl (saysNames_namesDatum _), given_of_at rfl (saysNames_namesDatum _), by simp⟩
  modules := by
    refine given_of_at (x := .list (c.modules.items.map ruleDatum)) rfl ?_
    refine ⟨_, c.modules.items.map filledRule, rfl, rfl, ?_⟩
    rw [List.forall₂_map_left_iff, List.forall₂_map_right_iff, List.forall₂_same]
    exact fun m _ => saysRule_ruleDatum m

/-- A table has its shape if each field is known and has its own. -/
theorem accepts_table {shapes : List (String × Shape)} {required : List String} {fields : List (String × Datum)}
    (hshapes : (shapes.map Prod.fst).Nodup) (hrequired : ∀ key ∈ required, (fields.lookup key).isSome)
    (hfields : ∀ f ∈ fields, ∃ shape, shapes.lookup f.1 = some shape ∧ shape.Accepts false f.2) :
    (Shape.table shapes required).Accepts false (.table fields) := by
  refine .table hrequired (fun f hf => ?_) fun key shape x hmem hx => ?_
  · obtain ⟨shape, hshape, -⟩ := hfields f hf
    exact List.mem_map_of_mem (f := Prod.fst) (Dict.mem_of_lookup hshape)
  · obtain ⟨shape', hshape', haccepts⟩ := hfields (key, x) (Dict.mem_of_lookup hx)
    rw [(Dict.lookup_eq_some_iff_mem hshapes).mpr hmem, Option.some_inj] at hshape'
    exact hshape' ▸ haccepts

theorem accepts_names (l : Listing String) : namesShape.Accepts false (namesDatum l) := by
  refine .list fun x hx => ?_
  obtain ⟨s, -, rfl⟩ := List.mem_map.mp hx
  exact .text (by simp)

theorem accepts_count {n : Int} (hn : 0 ≤ n) : Shape.count.Accepts false (.int n) := .count rfl hn

theorem mem_of_unknownFault {key value : String} {allowed : List String} (h : unknownFault key value allowed = []) :
    value ∈ allowed := by
  rw [unknownFault] at h
  split_ifs at h with hmem
  simpa using hmem

theorem tags_of_moduleFaults {i : Nat} {seen : List String} {rules : List ModuleRule}
    (h : moduleFaults i seen rules = []) : ∀ m ∈ rules, m.tag ≠ "" := by
  induction rules generalizing i seen with
  | nil => simp
  | cons m rules ih =>
    rw [moduleFaults] at h
    by_cases htag : m.tag = ""
    · rw [if_pos htag] at h
      cases h
    · rw [if_neg htag, List.append_eq_nil_iff] at h
      exact List.forall_mem_cons.mpr ⟨htag, ih h.2⟩

theorem defaultModule_ne_empty (h : c.defaultModuleFaults = []) : c.classification.defaultModule ≠ "" := by
  intro hempty
  simp [defaultModuleFaults, hempty] at h

/-- **The document has the shape of a settings file.** -/
theorem accepts_document (hvalid : c.faults = []) : settingsShape.Accepts false c.document := by
  have hcounts := nonneg_of_faults hvalid
  simp only [countSettings, List.forall_mem_cons] at hcounts
  obtain ⟨hdependency, hdependent, hcomplexity, hsize, hworkers, httl, -⟩ := hcounts
  simp only [faults, List.append_eq_nil_iff, and_assoc] at hvalid
  obtain ⟨-, -, -, -, -, -, hmodules, hdefault, hpolicy, -, -, -, -, -, -, -, hformat⟩ := hvalid
  refine accepts_table (by simp) (by simp) ?_
  simp only [List.forall_mem_cons]
  refine ⟨⟨_, rfl, ?cache⟩, ⟨_, rfl, ?classification⟩, ⟨_, rfl, ?exclude⟩, ⟨_, rfl, ?modules⟩, ⟨_, rfl, ?output⟩,
    ⟨_, rfl, ?scan⟩, ⟨_, rfl, ?symbols⟩, ⟨_, rfl, ?thresholds⟩, by simp⟩
  case modules =>
    refine .list fun x hx => ?_
    obtain ⟨m, hm, rfl⟩ := List.mem_map.mp hx
    refine accepts_table (by simp) (by simp) ?_
    simp only [List.forall_mem_cons]
    exact ⟨⟨_, rfl, accepts_names _⟩, ⟨_, rfl, .text fun _ => tags_of_moduleFaults hmodules m hm⟩, by simp⟩
  all_goals refine accepts_table (by simp) (by simp) ?_
  all_goals simp only [List.forall_mem_cons]
  case cache => exact ⟨⟨_, rfl, .text (by simp)⟩, ⟨_, rfl, .bool _⟩, ⟨_, rfl, accepts_count httl⟩, by simp⟩
  case classification =>
    exact ⟨⟨_, rfl, .text fun _ => defaultModule_ne_empty hdefault⟩, ⟨_, rfl, .oneOf (mem_of_unknownFault hpolicy)⟩,
      by simp⟩
  case exclude => exact ⟨⟨_, rfl, accepts_names _⟩, ⟨_, rfl, .bool _⟩, ⟨_, rfl, accepts_names _⟩, by simp⟩
  case output => exact ⟨⟨_, rfl, .bool _⟩, ⟨_, rfl, .oneOf (mem_of_unknownFault hformat)⟩, by simp⟩
  case scan =>
    exact ⟨⟨_, rfl, accepts_names _⟩, ⟨_, rfl, accepts_names _⟩, ⟨_, rfl, accepts_count hsize⟩,
      ⟨_, rfl, accepts_count hworkers⟩, by simp⟩
  case symbols => exact ⟨⟨_, rfl, accepts_names _⟩, ⟨_, rfl, accepts_names _⟩, by simp⟩
  case thresholds =>
    exact ⟨⟨_, rfl, accepts_count hcomplexity⟩, ⟨_, rfl, accepts_count hdependency⟩,
      ⟨_, rfl, accepts_count hdependent⟩, by simp⟩

theorem itemsFinite_iff {items : List Datum} : Datum.itemsFinite items = true ↔ ∀ x ∈ items, x.isFinite = true := by
  induction items with
  | nil => simp [Datum.itemsFinite]
  | cons x items ih => rw [Datum.itemsFinite, Bool.and_eq_true, ih, List.forall_mem_cons]

theorem isFinite_namesDatum (l : Listing String) : (namesDatum l).isFinite = true := by
  rw [namesDatum, Datum.isFinite, itemsFinite_iff, List.forall_mem_map]
  exact fun _ _ => rfl

theorem isFinite_ruleDatum (m : ModuleRule) : (ruleDatum m).isFinite = true := by
  simp [ruleDatum, Datum.isFinite, Datum.fieldsFinite, isFinite_namesDatum]

/-- No number of the document is infinite or undefined. -/
theorem isFinite_document (c : Config) : c.document.isFinite = true := by
  have hrules : Datum.itemsFinite (c.modules.items.map ruleDatum) = true := by
    rw [itemsFinite_iff, List.forall_mem_map]
    exact fun m _ => isFinite_ruleDatum m
  simp [document, Datum.isFinite, Datum.fieldsFinite, isFinite_namesDatum, hrules]

/-! ## Loading what was written -/

/-- A text that the program writes for settings: the text of the settings, the settings as they are shown
with a path on one line, or the first settings file of a project. -/
inductive Writes : Config → String → Prop
  | bare (c : Config) : Writes c c.tomlText
  | shown (c : Config) {source : String} (hsource : '\n' ∉ source.toList) : Writes c (c.shownText source)
  | initial : Writes default initialFileText

/-- What stands above the text of the settings is comment. -/
theorem Writes.front {text : String} (h : Writes c text) :
    ∃ front, text.toList = front ++ c.tomlText.toList ∧ IsComment front := by
  cases h with
  | bare => exact ⟨[], (List.nil_append _).symm, .nil⟩
  | @shown _ source hsource =>
    rw [shownText, String.toList_append]
    refine ⟨_, rfl, ?_⟩
    split_ifs
    · exact .text " Default configuration (no config file found)" "" (notMem_toList_ofList (by decide)) .nil
    · have hline : '\n' ∉ (" Configuration from: " ++ source).toList := by
        rw [String.toList_append, List.mem_append, not_or]
        exact ⟨notMem_toList_ofList (by decide), hsource⟩
      have hcomment := IsComment.text _ "\n" hline (.empty .nil)
      rwa [String.append_assoc, String.append_assoc, String.append_assoc, ← String.append_assoc] at hcomment
  | initial =>
    refine ⟨_, String.toList_append, ?_⟩
    exact .text " modsplit configuration" "# Modules are matched in order; the first keyword hit wins.\n\n"
      (notMem_toList_ofList (by decide))
      (.text " Modules are matched in order; the first keyword hit wins." "\n" (notMem_toList_ofList (by decide))
        (.empty .nil))

/-- **Settings that were written are loaded again.** -/
theorem load_written {disk : Disk} {path text : String} (hformat : ConfigFormat.ofPath path = .toml)
    (hread : disk.read (Path.clean path) = .ok (Bytes.ofString text)) (htext : Writes c text)
    (hvalid : c.faults = []) (hwords : c.InWords) (hspared : c.Spared) : load disk path = .ok c.filled := by
  obtain ⟨front, hfront, hcomment⟩ := htext.front
  have hsays : (ConfigFormat.ofPath path).read? (Bytes.ofString text) = some c.document := by
    rw [hformat, ConfigFormat.read?]
    simp [read?_tomlText hfront hcomment hvalid hwords hspared, isFinite_document]
  exact load_eq_ok_iff.mpr ⟨c.document, ⟨_, hread, hsays⟩, accepts_document hvalid, follows_document hwords,
    (faults_filled c).trans hvalid⟩

/-- The first settings file of a project gives the defaults. -/
theorem load_written_initial :
    load (appFiles (Bytes.ofString initialFileText)) "app/modsplit.toml" = .ok default.filled :=
  load_written (by decide +kernel) (read_appFiles _) .initial (by decide +kernel) (by decide +kernel)
    (by decide +kernel)

/-- The text of settings begins with the directory of the cache. -/
theorem toList_tomlText (c : Config) : ∃ rest, c.tomlText.toList =
    '\n' :: '[' :: ("cache".toList ++ ']' :: '\n' :: ' ' :: ' ' ::
      ("dir".toList ++ ' ' :: '=' :: ' ' :: '\x22' :: (c.cache.dir.toList.flatMap Toml.escape ++ rest))) := by
  rw [tomlText, sections, Toml.sectionsText, List.cons_append, List.cons_append, List.map_cons, String.join_cons,
    Section.toText, List.map_cons, String.join_cons, Field.toText, Field.plain]
  simp [Toml.Value.toText, Toml.quote]

theorem load_malformed {disk : Disk} {path : String} {content : Bytes}
    (hread : disk.read (Path.clean path) = .ok content) (hnone : (ConfigFormat.ofPath path).read? content = none) :
    load disk path = .error (.malformed path) := by
  unfold load
  rw [hread]
  simp only [hnone]

/-- The last control character is written as it is, and no text in which it stands is read. -/
theorem read?_writes_lost {text : String} {cs rest : List Char} (htext : Writes c text)
    (hdir : c.cache.dir.toList = cs ++ '\x1f' :: rest) (hcs : ∀ x ∈ cs, Toml.Spared x) :
    Toml.read? (Bytes.ofString text) = none := by
  obtain ⟨front, hfront, hcomment⟩ := htext.front
  obtain ⟨tail, htail⟩ := c.toList_tomlText
  have hescape : Toml.escape '\x1f' = ['\x1f'] := by decide
  rw [hdir, List.flatMap_append, List.flatMap_cons, hescape, List.append_assoc, List.append_assoc,
    List.singleton_append] at htail
  exact Toml.read?_lost hcomment (hfront.trans (congrArg _ htail)) (isKey_sectionKeys _ (by simp [sectionKeys]))
    (isKey_sectionKeys _ (by simp [sectionKeys])) hcs

/-- The defaults with a control character in a path. -/
def separatedConfig : Config := { default with cache := { default.cache with dir := "a\x1fb" } }

/-- The text of these settings says nothing, although they pass their check. -/
theorem load_separated : separatedConfig.faults = [] ∧ separatedConfig.InWords ∧
    Writes separatedConfig (separatedConfig.shownText "") ∧
    load (appFiles (Bytes.ofString (separatedConfig.shownText ""))) "app/modsplit.toml" =
      .error (.malformed "app/modsplit.toml") := by
  have hwrites : Writes separatedConfig (separatedConfig.shownText "") := .shown _ (by simp)
  have hdir : separatedConfig.cache.dir.toList = ['a'] ++ '\x1f' :: ['b'] := by simp [separatedConfig]
  have hread : Toml.read? (Bytes.ofString (separatedConfig.shownText "")) = none :=
    read?_writes_lost hwrites hdir (by simp [Toml.Spared])
  have hformat : ConfigFormat.ofPath "app/modsplit.toml" = .toml := by decide +kernel
  refine ⟨by decide +kernel, by decide +kernel, hwrites, load_malformed (read_appFiles _) ?_⟩
  rw [hformat, ConfigFormat.read?, hread]
  rfl

end Config

end ScriptSplit
