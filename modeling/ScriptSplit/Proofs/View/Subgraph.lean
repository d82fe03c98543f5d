import Mathlib
import ScriptSplit.Proofs.View.Flowchart

/-!
# Subgraphs that are one

The id of a subgraph is made of the tag of its module: letters and digits stay, and every other character becomes
an underscore. Two tags that differ in other characters alone give one id, and a reader of the chart takes their
modules for one subgraph.

* `Alike`: the tags differ in characters that are neither letters nor digits.
* `chartId_eq_iff`: alike tags, and no others, have the same id.
* **`subgraphs_apart`**: the subgraphs of a report have ids of their own exactly if no two tags of its chart are alike.
* `subgraphs_merged`: a chart with two modules and one id.
-/

namespace ScriptSplit

/-! ## Ids of tags -/

/-- The characters are the same in every id. -/
def SameInIds (a b : Char) : Prop := a = b ∨ a.isAlphanum = false ∧ b.isAlphanum = false

instance (a b : Char) : Decidable (SameInIds a b) := inferInstanceAs (Decidable (_ ∨ _))

/-- The tags have equal characters in each place, or two that are neither letters nor digits. -/
def Alike (s t : String) : Prop := List.Forall₂ SameInIds s.toList t.toList

instance (s t : String) : Decidable (Alike s t) := inferInstanceAs (Decidable (List.Forall₂ _ _ _))

/-- The character that stands for another one in an id. -/
def idChar (c : Char) : Char := if c.isAlphanum || c = '_' then c else '_'

theorem idChar_eq_iff {a b : Char} : idChar a = idChar b ↔ SameInIds a b := by
  have hkept : ∀ c : Char, c.isAlphanum = true → idChar c = c := fun c hc => if_pos (by simp [hc])
  have hother : ∀ c : Char, c.isAlphanum = false → idChar c = '_' := by
    intro c hc
    unfold idChar
    split_ifs with hkeep
    · simpa [hc] using hkeep
    · rfl
  -- an underscore is no letter, so it stands for the other characters alone
  have hunderscore : ∀ c : Char, c.isAlphanum = true → c ≠ '_' := by
    rintro c hc rfl
    exact absurd hc (by decide)
  unfold SameInIds
  cases ha : a.isAlphanum with
  | true =>
    cases hb : b.isAlphanum with
    | true => simp [hkept a ha, hkept b hb]
    | false =>
      rw [hkept a ha, hother b hb]
      have hne : a ≠ b := by
        rintro rfl
        rw [ha] at hb
        cases hb
      simp [hunderscore a ha, hne]
  | false =>
    cases hb : b.isAlphanum with
    | true =>
      rw [hother a ha, hkept b hb]
      have hne : a ≠ b := by
        rintro rfl
        rw [ha] at hb
        cases hb
      simp [(hunderscore b hb).symm, hne]
    | false => simp [hother a ha, hother b hb]

/-- **Alike tags** have the same id, and no others do. -/
theorem chartId_eq_iff {s t : String} : chartId s = chartId t ↔ Alike s t := by
  have hmap : ∀ s : String, (chartId s).toList = s.toList.map idChar := fun s => String.toList_ofList
  rw [← String.toList_inj, hmap, hmap, ← List.forall₂_eq_eq_eq, List.forall₂_map_left_iff, List.forall₂_map_right_iff]
  simp only [idChar_eq_iff]
  rfl

/-! ## Subgraphs of a chart -/

/-- The id of the subgraph of a block. -/
def Block.subgraphId (b : Block) : String := "m_" ++ chartId b.tag

/-- A block is opened with its id, before the label. -/
theorem Block.heading_subgraphId (b : Block) :
    b.heading = "  subgraph " ++ b.subgraphId ++ "[\x22" ++ chartLabel b.tag ++ "\x22]" := by
  have hfront : "  subgraph m_" = "  subgraph " ++ "m_" := by decide
  rw [heading_eq, subgraphId, hfront, ← String.append_assoc]

theorem subgraphId_eq_iff {b b' : Block} : b.subgraphId = b'.subgraphId ↔ Alike b.tag b'.tag := by
  rw [Block.subgraphId, Block.subgraphId, String.append_right_inj, chartId_eq_iff]

/-- Ids are distinct exactly if no two tags are alike. -/
theorem nodup_subgraphIds_iff {blocks : List Block} :
    (blocks.map Block.subgraphId).Nodup ↔ blocks.Pairwise fun b b' => ¬ Alike b.tag b'.tag := by
  rw [List.Nodup, List.pairwise_map]
  simp only [ne_eq, subgraphId_eq_iff]

/-- The tag of a block is one of the table of modules. -/
theorem tag_mem_of_mem_blocks {cfg : Config} {r : FileReport} (hvalid : cfg.faults = [])
    (h : Charted (Classifier.ofConfig cfg) r) {b : Block} (hb : b ∈ (Flowchart.ofReport r).blocks) :
    b.tag ∈ cfg.modules.items.map (·.tag) := by
  obtain ⟨p, hp, rfl⟩ := List.mem_map.mp hb
  have hmem := List.mem_of_mem_filter hp
  rw [h.getD_modules] at hmem
  obtain ⟨q, hq, rfl⟩ := List.mem_map.mp hmem
  have hkey : q.1 ∈ ((Classifier.ofConfig cfg).modules r.functions.items).keys := List.mem_map_of_mem hq
  obtain htag | htag := (Classifier.mem_keys_modules _ _).mp hkey
  · exact htag
  · rw [Block.ofModule, htag]
    exact Classifier.defaultModule_mem_of_valid hvalid

/-- **The subgraphs of a report** have ids of their own exactly if no two tags of its chart are alike. Their tags
are those of configured modules, so no report merges any if no two configured tags are alike. -/
theorem subgraphs_apart {cfg : Config} {path : String} {content : Bytes} {r : FileResult} (hvalid : cfg.faults = [])
    (h : analyze cfg path content = .ok r) :
    ∃ chart : Flowchart, chart.Draws (Classifier.ofConfig cfg) r.report ∧
      (∀ b ∈ chart.blocks, b.heading = "  subgraph " ++ b.subgraphId ++ "[\x22" ++ chartLabel b.tag ++ "\x22]" ∧
        b.tag ∈ cfg.modules.items.map (·.tag)) ∧
      ((chart.blocks.map Block.subgraphId).Nodup ↔ chart.blocks.Pairwise fun b b' => ¬ Alike b.tag b'.tag) ∧
      ((∀ s ∈ cfg.modules.items.map (·.tag), ∀ t ∈ cfg.modules.items.map (·.tag), Alike s t → s = t) →
        (chart.blocks.map Block.subgraphId).Nodup) := by
  rw [eq_resultOf_of_analyze h]
  have hcharted := charted_resultOf cfg path content
  have htags := fun b hb => tag_mem_of_mem_blocks hvalid hcharted (b := b) hb
  refine ⟨_, hcharted.draws, fun b hb => ⟨b.heading_subgraphId, htags b hb⟩, nodup_subgraphIds_iff, fun hdistinct => ?_⟩
  rw [nodup_subgraphIds_iff]
  have hsorted := List.pairwise_map.mp (tags_sorted hcharted)
  refine hsorted.imp_of_mem fun {b b'} hb hb' hlt halike => ?_
  rw [hdistinct _ (htags b hb) _ (htags b' hb') halike] at hlt
  exact String.lt_irrefl _ hlt

/-- Modules whose tags are not alike: where one has a hyphen, the other has a letter. -/
def hyphenModules : Config :=
  { Config.default with
    modules := some [⟨"io-in", some ["load"]⟩, ⟨"ioXin", some ["save"]⟩]
    classification := { Config.default.classification with defaultModule := "io-in" } }

/-- A function for each of two modules. -/
def loadAndSave : Bytes := Bytes.ofString "function load() \x7b\x7d\nfunction save() \x7b\x7d\n"

theorem analyze_loadAndSave (cfg : Config) :
    analyze cfg "app.js" loadAndSave = .ok (resultOf cfg "app.js" loadAndSave) := by
  have hvalid : Utf8.isValid loadAndSave = true := by cbv
  exact if_pos hvalid

theorem subgraphs_apart_hyphenModules : hyphenModules.faults = [] ∧
    ∃ r, analyze hyphenModules "app.js" loadAndSave = .ok r ∧
      mermaid r.report = "graph LR\n  subgraph m_io_in[\x22io-in\x22]\n    f0[\x22load\x22]\n  end\n" ++
        "  subgraph m_ioXin[\x22ioXin\x22]\n    f1[\x22save\x22]\n  end\n" ∧
      ∃ chart : Flowchart, chart.Draws (Classifier.ofConfig hyphenModules) r.report ∧
        (chart.blocks.map Block.subgraphId).Nodup := by
  have hfaults : hyphenModules.faults = [] := by decide +kernel
  have hr := analyze_loadAndSave hyphenModules
  have hdistinct : ∀ s ∈ hyphenModules.modules.items.map (·.tag), ∀ t ∈ hyphenModules.modules.items.map (·.tag),
      Alike s t → s = t := by decide
  refine ⟨hfaults, _, hr, by decide +kernel, ?_⟩
  obtain ⟨chart, hdraws, -, -, hapart⟩ := subgraphs_apart hfaults hr
  exact ⟨chart, hdraws, hapart hdistinct⟩

/-- Modules whose tags differ in a hyphen and an underscore. -/
def twinModules : Config :=
  { Config.default with
    modules := some [⟨"io-in", some ["load"]⟩, ⟨"io_in", some ["save"]⟩]
    classification := { Config.default.classification with defaultModule := "io-in" } }

/-- **Two modules are drawn as one subgraph**: settings pass their check, and the ids of a chart are the same. -/
theorem subgraphs_merged : twinModules.faults = [] ∧
    ∃ r, analyze twinModules "app.js" loadAndSave = .ok r ∧
      mermaid r.report = "graph LR\n  subgraph m_io_in[\x22io-in\x22]\n    f0[\x22load\x22]\n  end\n" ++
        "  subgraph m_io_in[\x22io_in\x22]\n    f1[\x22save\x22]\n  end\n" ∧
      ∀ chart : Flowchart, chart.Draws (Classifier.ofConfig twinModules) r.report →
        ¬ (chart.blocks.map Block.subgraphId).Nodup := by
  refine ⟨by decide +kernel, _, analyze_loadAndSave _, by decide +kernel, fun chart hdraws hnodup => ?_⟩
  have hfilled : ((resultOf twinModules "app.js" loadAndSave).report.modules.getD []).filter isFilled =
      [("io-in", some ["load"]), ("io_in", some ["save"])] := by decide +kernel
  have htags : chart.blocks.map (·.tag) = ["io-in", "io_in"] := by
    have hblocks := congrArg (List.map Prod.fst) hdraws.filled
    rw [hfilled, List.map_map] at hblocks
    exact hblocks
  rw [nodup_subgraphIds_iff] at hnodup
  have hapart : (chart.blocks.map (·.tag)).Pairwise fun s t => ¬ Alike s t := List.pairwise_map.mpr hnodup
  rw [htags] at hapart
  exact absurd hapart (by decide)

end ScriptSplit
