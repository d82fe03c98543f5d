import Mathlib
import ScriptSplit.Proofs.Config.Loading

/-!
# Numbers of a settings file

A file may give numbers beyond those of a signed word of 64 bits. They have the right shape and wrap around when
they are read, and only the rules for settings can tell: the wrapped number lies below zero, and each setting that is
a number has a rule against that.

* `Setting.key`: the name of a setting in the text of an error.
* `Datum.word?_neg_iff`: a number turns negative exactly if it is beyond the signed ones.
* `Config.negative_mem_faults_iff`: the rules name exactly the negative numbers.
* **`Config.load_numbers`**: a file gives its own numbers, or an error that names those that wrapped around.
-/

namespace ScriptSplit

/-- The name of a setting in the text of an error. -/
def Setting.key {α : Type} (s : Setting α) : String := ".".intercalate s.place

/-- **A number turns negative** exactly if it is beyond the signed ones. -/
theorem Datum.word?_neg_iff {x : Datum} {n v : Int} (hrange : x.InRange) (hx : x.integer? = some n) (hn : 0 ≤ n)
    (hword : x.word? = some v) : v < 0 ↔ Word64.greatest < n := by
  cases x with
  | int m =>
    cases hx
    cases hword
    simp only [InRange, Word64.fits, Word64.fitsUnsigned, Bool.and_eq_true, decide_eq_true_eq] at hrange
    simp only [Word64.least, Word64.greatest, Word64.count] at hrange
    simp only [Word64.wrap, Word64.greatest, Word64.count, Int.bmod_def]
    split_ifs <;> omega
  | real r =>
    rw [integer?] at hx
    simp only [word?, hx, Option.map_some, Option.some.injEq] at hword
    have hfits : Word64.fits n = true ↔ n ≤ Word64.greatest := by
      rw [Word64.fits, Bool.and_eq_true, decide_eq_true_eq, decide_eq_true_eq, Word64.least]
      omega
    subst hword
    split_ifs with h
    · have hle := hfits.mp h
      omega
    · rw [hfits] at h
      simp only [Word64.least]
      omega
  | _ => cases hx

theorem Disk.Says.inRange {disk : Disk} {path : String} {d : Datum} (h : disk.Says path d) : d.InRange := by
  obtain ⟨content, -, hread⟩ := h
  exact ConfigFormat.inRange_read? hread

/-- The number at the place is beyond the signed ones of 64 bits. -/
def Datum.Beyond (d : Datum) (place : List String) : Prop :=
  ∃ x n, d.at? place = some x ∧ x.integer? = some n ∧ Word64.greatest < n

namespace Config

/-! ## The rules for numbers -/

section Rules

variable {key : String}

theorem negative_mem_negativeFault {key' : String} {n : Int} :
    .negative key ∈ negativeFault key' n ↔ key' = key ∧ n < 0 := by
  unfold negativeFault
  split_ifs with hn <;> simp [hn, eq_comm]

theorem negative_notMem_ite {c : Prop} [Decidable c] {f : SettingFault} (hf : f ≠ .negative key) :
    .negative key ∉ if c then [f] else [] := by
  split_ifs <;> simp [hf.symm]

theorem negative_notMem_emptyEntries {key' : String} {isEmpty : String → Bool} {entries : List String} :
    .negative key ∉ emptyEntries key' isEmpty entries := by
  intro h
  obtain ⟨p, -, hp⟩ := List.mem_flatMap.mp h
  dsimp only at hp
  split_ifs at hp <;> simp at hp

theorem negative_notMem_moduleFaults {i : Nat} {seen : List String} {rules : List ModuleRule} :
    .negative key ∉ moduleFaults i seen rules := by
  induction rules generalizing i seen with
  | nil => simp [moduleFaults]
  | cons m rest ih =>
    rw [moduleFaults]
    split_ifs <;> simp [ih, negative_notMem_emptyEntries]

theorem negative_notMem_defaultModuleFaults {cfg : Config} : .negative key ∉ cfg.defaultModuleFaults := by
  unfold defaultModuleFaults
  dsimp only
  split_ifs <;> simp

theorem negative_notMem_unknownFault {key' value : String} {allowed : List String} :
    .negative key ∉ unknownFault key' value allowed := by
  unfold unknownFault
  split_ifs <;> simp

theorem negative_notMem_extensions {extensions : List String} : .negative key ∉
    extensions.zipIdx.flatMap fun (e, i) => if e.startsWith "." then [] else [SettingFault.noPoint i e] := by
  intro h
  obtain ⟨p, -, hp⟩ := List.mem_flatMap.mp h
  dsimp only at hp
  split_ifs at hp <;> simp at hp

theorem negative_notMem_globFaults {patterns : List String} : .negative key ∉ globFaults patterns := by
  intro h
  obtain ⟨p, -, hp⟩ := List.mem_flatMap.mp h
  cases hparse : Glob.parse p.1 <;> simp [hparse] at hp

/-- The names by which the rules call the numbers. -/
theorem keys_countSettings : countSettings.map Setting.key =
    ["thresholds.dependency_count", "thresholds.dependent_count", "thresholds.complexity", "scan.max_file_size",
      "scan.workers", "cache.ttl"] := by
  decide

theorem negative_mem_faults {cfg : Config} :
    .negative key ∈ cfg.faults ↔ ∃ s ∈ countSettings, s.key = key ∧ s.value cfg < 0 := by
  have hkeys := keys_countSettings
  simp only [countSettings, Setting.key, List.map_cons, List.map_nil, List.cons.injEq, and_true] at hkeys
  have hlist : ∀ key' : String, SettingFault.emptyList key' ≠ .negative key := fun _ h => by cases h
  have hdir : SettingFault.noCacheDir ≠ .negative key := fun h => by cases h
  simp only [faults, List.mem_append, negative_mem_negativeFault, negative_notMem_emptyEntries,
    negative_notMem_ite (hlist _), negative_notMem_ite hdir, negative_notMem_moduleFaults,
    negative_notMem_defaultModuleFaults, negative_notMem_unknownFault, negative_notMem_extensions,
    negative_notMem_globFaults, or_false]
  simp only [countSettings, Setting.key, List.mem_cons, List.not_mem_nil, or_false, exists_eq_or_imp, exists_eq_left,
    hkeys, or_assoc]

/-- **The rules name a number** exactly if it is negative. -/
theorem negative_mem_faults_iff {cfg : Config} {s : Setting Int} (hs : s ∈ countSettings) :
    .negative s.key ∈ cfg.faults ↔ s.value cfg < 0 := by
  have hkeys : (countSettings.map Setting.key).Nodup := by
    rw [keys_countSettings]
    decide
  rw [negative_mem_faults]
  constructor
  · rintro ⟨s', hs', hkey, hneg⟩
    rwa [List.inj_on_of_nodup_map hkeys hs' hs hkey] at hneg
  · exact fun hneg => ⟨s, hs, rfl, hneg⟩

end Rules

/-! ## Loading -/

section Loading

variable {disk : Disk} {path : String} {d : Datum} {cfg : Config}

theorem default_counts : ∀ s ∈ countSettings, 0 ≤ s.value default := by decide

/-- **A setting is negative** exactly if its number in the file is beyond the signed ones. -/
theorem Follows.neg_iff (h : Follows Datum.word? default d cfg) (hrange : d.InRange)
    (hd : settingsShape.Accepts true d) {s : Setting Int} (hs : s ∈ countSettings) :
    s.value cfg < 0 ↔ d.Beyond s.place := by
  cases hx : d.at? s.place with
  | none =>
    have hdefault := default_counts s hs
    rw [(h.counts s hs).2 hx]
    refine iff_of_false (not_lt.mpr hdefault) ?_
    rintro ⟨x, n, hx', -⟩
    rw [hx] at hx'
    cases hx'
  | some x =>
    cases hd.at? (countSettings_shape s hs) hx with
    | @count _ n hn hnonneg =>
      rw [Datum.word?_neg_iff (hrange.at? hx) hn hnonneg ((h.counts s hs).1 x hx)]
      refine ⟨fun hlt => ⟨x, n, hx, hn, hlt⟩, ?_⟩
      rintro ⟨x', n', hx', hn', hlt⟩
      obtain rfl := Option.some.inj (hx.symm.trans hx')
      obtain rfl := Option.some.inj (hn.symm.trans hn')
      exact hlt

/-- A document of the right shape gives its settings if they break no rule. -/
theorem load_of_shape (hdocument : disk.Says path d) (hshape : shapeViolations d = []) :
    load disk path = match Config.default.overlay? d with
      | none => .error (.malformed path)
      | some cfg => if cfg.faults.isEmpty then .ok cfg else .error (.invalid path cfg.faults) := by
  obtain ⟨content, hcontent, hread⟩ := hdocument
  unfold load
  cases hcfg : Config.default.overlay? d <;> simp only [hcontent, hread, hshape, hcfg]

/-- An error that names settings comes from the settings that follow the file. -/
theorem exists_follows_of_load_invalid {faults : List SettingFault} (hdocument : disk.Says path d)
    (hshape : shapeViolations d = []) (h : load disk path = .error (.invalid path faults)) :
    ∃ cfg, Follows Datum.word? default d cfg ∧ faults = cfg.faults := by
  rw [load_of_shape hdocument hshape] at h
  split at h
  · cases h
  rename_i cfg hcfg
  split_ifs at h
  have hfaults := (ConfigError.invalid.inj (Except.error.inj h)).2
  exact ⟨cfg, overlay?_eq_some_iff.mp hcfg, hfaults.symm⟩

/-- **No number wraps around unseen**: a file of the right shape gives settings only if no number of it is beyond the
signed ones, and then each setting is the number that the file says. Else there is an error that the file is
invalid; where it comes from the rules for settings it names exactly the numbers beyond. -/
theorem load_numbers (hdocument : disk.Says path d) (hshape : shapeViolations d = []) :
    (∀ e, load disk path = .error e → Invalid path e) ∧
    (∀ cfg, load disk path = .ok cfg → ∀ s ∈ countSettings, ¬ d.Beyond s.place ∧
      ∀ x, d.at? s.place = some x → x.integer? = some (s.value cfg)) ∧
    ∀ faults, load disk path = .error (.invalid path faults) → ∀ s ∈ countSettings,
      (.negative s.key ∈ faults ↔ d.Beyond s.place) := by
  have hrange := hdocument.inRange
  have haccepts := shapeViolations_eq_nil_iff.mp hshape
  refine ⟨fun e => invalid_of_load, fun cfg hload s hs => ?_, fun faults hload s hs => ?_⟩
  · obtain ⟨d', hdocument', hdateless, hfollows, hfaults⟩ := load_eq_ok_iff.mp hload
    obtain rfl := hdocument.unique hdocument'
    have hexact := hfollows.exact hrange hdateless hfaults
    rw [← hfollows.neg_iff hrange haccepts hs]
    exact ⟨not_lt.mpr (nonneg_of_faults hfaults s hs), (hexact.counts s hs).1⟩
  · obtain ⟨cfg, hfollows, hfaults⟩ := exists_follows_of_load_invalid hdocument hshape hload
    rw [hfaults, negative_mem_faults_iff hs, hfollows.neg_iff hrange haccepts hs]

/-- The greatest number without a sign, for a setting that zero switches off. -/
def wrappedSettings : Bytes := Bytes.ofString "[scan]\nworkers = 2\n\n[cache]\nttl = 18446744073709551615\n"

/-- What is read from it: the number of the cache has wrapped around. -/
def wrappedConfig : Config :=
  { default with
    scan := { default.scan with workers := 2 }
    cache := { default.cache with ttl := -1 } }

theorem read?_wrappedSettings :
    (ConfigFormat.toml.read? wrappedSettings).map (fun d => (shapeViolations d, Config.default.overlay? d)) =
      some ([], some wrappedConfig) := by
  decide +kernel

theorem faults_wrappedConfig : wrappedConfig.faults = [.negative "cache.ttl"] := by
  decide +kernel

theorem load_numbers_wrapped :
    ∃ d, (appFiles wrappedSettings).Says "app/modsplit.toml" d ∧ shapeViolations d = [] ∧
      load (appFiles wrappedSettings) "app/modsplit.toml" =
        .error (.invalid "app/modsplit.toml" [.negative "cache.ttl"]) ∧
      d.Beyond ["cache", "ttl"] ∧ ¬ d.Beyond ["scan", "workers"] := by
  obtain ⟨d, hread, hd⟩ := Option.map_eq_some_iff.mp read?_wrappedSettings
  obtain ⟨hviolations, hoverlay⟩ := Prod.mk.inj hd
  have hdocument := says_appFiles hread
  have hload : load (appFiles wrappedSettings) "app/modsplit.toml" =
      .error (.invalid "app/modsplit.toml" [.negative "cache.ttl"]) := by
    rw [load_of_shape hdocument hviolations, hoverlay]
    simp [faults_wrappedConfig]
  obtain ⟨-, -, hnamed⟩ := load_numbers hdocument hviolations
  refine ⟨d, hdocument, hviolations, hload, ?_, ?_⟩
  · exact (hnamed _ hload ⟨["cache", "ttl"], (·.cache.ttl)⟩ (by simp [countSettings])).mp (by decide)
  · exact mt (hnamed _ hload ⟨["scan", "workers"], (·.scan.workers)⟩ (by simp [countSettings])).mpr (by decide)

end Loading

end Config

end ScriptSplit
