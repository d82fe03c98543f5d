import Mathlib
import ScriptSplit.Config.Loading
import ScriptSplit.Proofs.Config.Overlay
import ScriptSplit.Proofs.Disk.Growth
import ScriptSplit.Proofs.Format.Toml.Range
import ScriptSplit.Proofs.Format.Yaml.Range

/-!
# Finding the settings

* `Disk.Says`: the document that a file holds.
* `Config.load_eq_ok_iff`: a file gives the settings that follow it, if it has the right shape and they pass
  their check.
* `Config.find_first`, `Config.find_default`: only the first file that is there counts.
* **`Config.find_decided`**: what is found for a directory.
-/

namespace ScriptSplit

theorem inRange_jsonTable? {t : Bytes} {d : Datum} (h : jsonTable? t = some d) : d.InRange := by
  simp only [jsonTable?, Option.bind_eq_bind, Option.bind_eq_some_iff] at h
  obtain ⟨y, ⟨j, -, hy⟩, h⟩ := h
  have hrange := Datum.inRange_ofJson? j y hy
  split at h
  · cases h
    exact hrange
  · cases h
    exact Datum.inRange_table.mpr fun f hf => absurd hf List.not_mem_nil
  · cases h

theorem ConfigFormat.inRange_read? {f : ConfigFormat} {t : Bytes} {d : Datum} (h : f.read? t = some d) : d.InRange := by
  have hfinite : ∀ {x : Datum}, (if x.isFinite then some x else none) = some d → x = d := by
    intro x hx
    split_ifs at hx
    exact Option.some.inj hx
  cases f with
  | toml =>
    obtain ⟨x, hx, h⟩ := Option.bind_eq_some_iff.mp h
    exact hfinite h ▸ Toml.inRange_read? hx
  | yaml =>
    obtain ⟨x, hx, h⟩ := Option.bind_eq_some_iff.mp h
    exact hfinite h ▸ Yaml.inRange_read? hx
  | json =>
    obtain ⟨x, hx, h⟩ := Option.bind_eq_some_iff.mp h
    exact hfinite h ▸ inRange_jsonTable? hx

/-- The file at a path can be read, and its text says this document. -/
def Disk.Says (disk : Disk) (path : String) (d : Datum) : Prop :=
  ∃ content, disk.read (Path.clean path) = .ok content ∧ (ConfigFormat.ofPath path).read? content = some d

theorem Disk.Says.unique {disk : Disk} {path : String} {d d' : Datum} (h : disk.Says path d) (h' : disk.Says path d') :
    d = d' := by
  obtain ⟨content, hcontent, hd⟩ := h
  obtain ⟨content', hcontent', hd'⟩ := h'
  rw [hcontent, Except.ok.injEq] at hcontent'
  subst hcontent'
  exact Option.some.inj (hd.symm.trans hd')

namespace Config

variable {disk : Disk} {path base : String} {cfg : Config} {d : Datum}

/-! ## One file -/

theorem load_eq_ok_iff : load disk path = .ok cfg ↔
    ∃ d, disk.Says path d ∧ settingsShape.Accepts false d ∧ Follows Datum.word? default d cfg ∧ cfg.faults = [] := by
  constructor
  · intro h
    unfold load at h
    split at h
    · cases h
    rename_i content hcontent
    split at h
    · cases h
    rename_i d hd
    split at h
    · cases h
    rename_i hshape
    split at h
    · cases h
    rename_i cfg' hcfg'
    split_ifs at h with hfaults
    cases h
    have hfollows := overlay?_eq_some_iff.mp hcfg'
    exact ⟨d, ⟨content, hcontent, hd⟩, hfollows.dateless (shapeViolations_eq_nil_iff.mp hshape), hfollows,
      List.isEmpty_iff.mp hfaults⟩
  · rintro ⟨d, ⟨content, hcontent, hd⟩, hshape, hfollows, hfaults⟩
    unfold load
    simp [hcontent, hd, shapeViolations_eq_nil_iff.mpr hshape.lax, overlay?_eq_some_iff.mpr hfollows, hfaults]

/-- An error that says of a file that its configuration is invalid. -/
def Invalid (path : String) (e : ConfigError) : Prop :=
  ∃ rest, e.message = "invalid configuration: " ++ path ++ ": " ++ rest ∨
    e.message = path ++ ": invalid configuration: " ++ rest

theorem invalid_malformed : Invalid path (.malformed path) := by
  have htext : ": malformed document" = ": " ++ "malformed document" := by decide
  refine ⟨"malformed document", .inl ?_⟩
  show "invalid configuration: " ++ path ++ ": malformed document" = _
  exact (congrArg _ htext).trans String.append_assoc.symm

theorem invalid_invalid {faults : List SettingFault} : Invalid path (.invalid path faults) := by
  have htext : ": invalid configuration: " = ": " ++ "invalid configuration: " := by decide
  refine ⟨"; ".intercalate (faults.map SettingFault.message), .inr ?_⟩
  show path ++ ": " ++ ("invalid configuration: " ++ _) = _
  rw [htext, ← String.append_assoc, ← String.append_assoc]

theorem invalid_of_load {e : ConfigError} (h : load disk path = .error e) : Invalid path e := by
  unfold load at h
  split at h
  · cases h
    exact ⟨_, .inl rfl⟩
  split at h
  · cases h
    exact invalid_malformed
  split at h
  · cases h
    exact ⟨_, .inl rfl⟩
  split at h
  · cases h
    exact invalid_malformed
  split_ifs at h
  cases h
  exact invalid_invalid

/-! ## The first file -/

theorem find_default (h : ∀ q ∈ searchPaths base, (disk.stat q).isOk = false) : find disk "" base = .ok ⟨default, ""⟩ := by
  have hnone : (searchPaths base).find? (fun q => (disk.stat q).isOk) = none :=
    List.find?_eq_none.mpr fun q hq => by simp [h q hq]
  simp [find, hnone]

theorem find_first {before after : List String} (hsplit : searchPaths base = before ++ path :: after)
    (hbefore : ∀ q ∈ before, (disk.stat q).isOk = false) (hpath : (disk.stat path).isOk = true) :
    find disk "" base = (load disk path).map fun cfg => ⟨cfg, path⟩ := by
  have hsome : (searchPaths base).find? (fun q => (disk.stat q).isOk) = some path := by
    rw [List.find?_eq_some_iff_append]
    exact ⟨hpath, before, after, hsplit, fun q hq => by simp [hbefore q hq]⟩
  simp [find, hsome]

theorem load_congr {other : Disk} (h : other.read (Path.clean path) = disk.read (Path.clean path)) :
    load other path = load disk path := by
  unfold load
  rw [h]

/-- The answer is an error that says of a file that its configuration is invalid. -/
def Refused (path : String) (answer : Except ConfigError Loaded) : Prop := ∃ e, answer = .error e ∧ Invalid path e

theorem refused_of_load (h : ∀ cfg, load disk path ≠ .ok cfg) :
    Refused path ((load disk path).map fun cfg => ⟨cfg, path⟩) := by
  cases hload : load disk path with
  | ok cfg => exact absurd hload (h cfg)
  | error e => exact ⟨e, rfl, invalid_of_load hload⟩

/-- **What is found for a directory** is decided by the first file that is there, out of those in the directory and
then those in its directory `.modsplit`. Without any, the defaults are found. A file that cannot be read, that says
no document, that has another shape or whose settings break a rule is an error. Else the settings are the only ones
that have the values of the document where it sets any and the defaults elsewhere. The rules are checked on the
numbers as they are kept in 64 bits, and what passes holds the numbers of the document. -/
theorem find_decided (disk : Disk) (base : String) :
    searchPaths base = fileNames.map (Path.join base) ++ fileNames.map (Path.join (Path.join base ".modsplit")) ∧
    ((∀ q ∈ searchPaths base, (disk.stat q).isOk = false) → find disk "" base = .ok ⟨default, ""⟩) ∧
    ∀ before path after, searchPaths base = before ++ path :: after →
      (∀ q ∈ before, (disk.stat q).isOk = false) → (disk.stat path).isOk = true →
        (∀ other : Disk, (∀ q ∈ before, (other.stat q).isOk = false) → (other.stat path).isOk = true →
          other.read (Path.clean path) = disk.read (Path.clean path) → find other "" base = find disk "" base) ∧
        ((¬ ∃ d, disk.Says path d) → Refused path (find disk "" base)) ∧
        ∀ d, disk.Says path d →
          (¬ settingsShape.Accepts false d → Refused path (find disk "" base)) ∧
          (settingsShape.Accepts false d → ∃ cfg, Follows Datum.word? default d cfg ∧
            (cfg.faults ≠ [] → Refused path (find disk "" base)) ∧
            (cfg.faults = [] → find disk "" base = .ok ⟨cfg, path⟩ ∧
              ∀ cfg', Follows Datum.integer? default d cfg' ↔ cfg' = cfg)) := by
  refine ⟨by simp [searchPaths], find_default, ?_⟩
  intro before path after hsplit hbefore hpath
  have hfind := find_first hsplit hbefore hpath
  refine ⟨fun other hother hstat hread => ?_, fun hnone => ?_, fun d hd => ⟨fun hshape => ?_, fun hshape => ?_⟩⟩
  · rw [hfind, find_first hsplit hother hstat, load_congr hread]
  · rw [hfind]
    refine refused_of_load fun cfg hload => ?_
    obtain ⟨d, hd, -⟩ := load_eq_ok_iff.mp hload
    exact hnone ⟨d, hd⟩
  · rw [hfind]
    refine refused_of_load fun cfg hload => ?_
    obtain ⟨d', hd', hshape', -⟩ := load_eq_ok_iff.mp hload
    exact hshape (hd.unique hd' ▸ hshape')
  · obtain ⟨cfg, hcfg⟩ := @exists_follows default d hshape
    refine ⟨cfg, hcfg, fun hfaults => ?_, fun hfaults => ⟨?_, fun cfg' => ?_⟩⟩
    · rw [hfind]
      refine refused_of_load fun cfg' hload => ?_
      obtain ⟨d', hd', -, hcfg', hfaults'⟩ := load_eq_ok_iff.mp hload
      rw [← hd.unique hd'] at hcfg'
      exact hfaults (hcfg.unique hcfg' ▸ hfaults')
    · rw [hfind, load_eq_ok_iff.mpr ⟨d, hd, hshape, hcfg, hfaults⟩]
      rfl
    · obtain ⟨content, -, hread⟩ := hd
      have hexact := hcfg.exact (ConfigFormat.inRange_read? hread) hshape hfaults
      exact ⟨fun h => h.unique hexact, fun h => h ▸ hexact⟩

/-- A directory with two settings files, of which the one that counts has the given content. -/
def appFiles (content : Bytes) : Disk :=
  ⟨.dir [("app", .dir [("modsplit.json", .file []), ("modsplit.toml", .file content)])], "/"⟩

/-- A list and a number. -/
def appSettings : Bytes := Bytes.ofString "[scan]\nextensions = [\".ts\"]\n\n[cache]\nttl = 5\n"

/-- The defaults with that list and that number. -/
def appConfig : Config :=
  { default with
    scan := { default.scan with extensions := some [".ts"] }
    cache := { default.cache with ttl := 5 } }

theorem find_appFiles (content : Bytes) : (appFiles content).find .follow "app/modsplit.toml" = .ok (.file content) := by
  have hsteps : (appFiles content).steps "app/modsplit.toml" = ["", "", "app", "modsplit.toml"] := by
    show Path.parts "//app/modsplit.toml" = _
    decide
  have hplace : (appFiles content).place .follow "app/modsplit.toml" = .ok ["app", "modsplit.toml"] := by
    rw [Disk.place_eq_walk (by decide), hsteps]
    cbv
  rw [Disk.find, hplace]
  rfl

theorem read_appFiles (content : Bytes) : (appFiles content).read (Path.clean "app/modsplit.toml") = .ok content := by
  have hclean : Path.clean "app/modsplit.toml" = "app/modsplit.toml" := by decide
  rw [hclean, Disk.read, find_appFiles]

theorem says_appFiles {content : Bytes} (h : ConfigFormat.toml.read? content = some d) :
    (appFiles content).Says "app/modsplit.toml" d :=
  ⟨content, read_appFiles content, h⟩

theorem find_decided_app : find (appFiles appSettings) "" "app" = .ok ⟨appConfig, "app/modsplit.toml"⟩ := by
  have hsplit : searchPaths "app" = [] ++ "app/modsplit.toml" :: (searchPaths "app").tail := by decide
  have hstat : ((appFiles appSettings).stat "app/modsplit.toml").isOk = true := by
    rw [Disk.stat, find_appFiles]
    rfl
  have hcontent : (appFiles appSettings).read (Path.clean "app/modsplit.toml") = .ok appSettings := by
    have hclean : Path.clean "app/modsplit.toml" = "app/modsplit.toml" := by decide
    rw [hclean, Disk.read, find_appFiles]
  have hformat : ConfigFormat.ofPath "app/modsplit.toml" = .toml := by decide
  have hgives : (ConfigFormat.toml.read? appSettings).bind default.overlay? = some appConfig := by decide +kernel
  have hviolations : (ConfigFormat.toml.read? appSettings).map shapeViolations = some [] := by decide +kernel
  obtain ⟨d, hread, hoverlay⟩ := Option.bind_eq_some_iff.mp hgives
  rw [hread, Option.map_some, Option.some.injEq] at hviolations
  have hfollows := overlay?_eq_some_iff.mp hoverlay
  have hshape := hfollows.dateless (shapeViolations_eq_nil_iff.mp hviolations)
  have hsays : (appFiles appSettings).Says "app/modsplit.toml" d := ⟨appSettings, hcontent, by rw [hformat, hread]⟩
  obtain ⟨-, -, hfirst⟩ := find_decided (appFiles appSettings) "app"
  obtain ⟨-, -, hdocument⟩ := hfirst [] _ _ hsplit (by simp) hstat
  obtain ⟨cfg, hcfg, -, hfound⟩ := (hdocument d hsays).2 hshape
  rw [hcfg.unique hfollows] at hfound
  exact (hfound (by decide +kernel)).1

end Config

end ScriptSplit
