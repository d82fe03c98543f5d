import Mathlib
import ScriptSplit.Proofs.Analysis.Consistency
import ScriptSplit.Proofs.Analysis.Cut
import ScriptSplit.Proofs.Format.Json.Pretty
import ScriptSplit.Proofs.Module.Partition
import ScriptSplit.Proofs.Registry.Cycles
import ScriptSplit.Proofs.Report.RoundTrip
import ScriptSplit.Proofs.Report.Texts
import ScriptSplit.Proofs.Script.Boundary
import ScriptSplit.Proofs.Script.Header

/-!
# Where the strings of a report come from

A string of a report is cut out of the text of the file, or it is the path of the file, a string of the
settings, or the same for all texts. So no string has a byte of half a character, and the JSON of the report
gives every string back.

* `Origin`: where a string comes from.
* `spells_functions` and its like: the parts of a report; `spells_resultOf`: all of its strings.
* `CutBetweenCharacters`: what the analysis keeps of the characters of a text.
* **`analyze_cuts_between_characters`**: every well-formed text is analysed so.
-/

namespace ScriptSplit

open Script Dependencies

/-! ## Origins -/

/-- The strings of the settings that a report may repeat. -/
def Config.reported (cfg : Config) : List String :=
  cfg.symbols.globals.items ++ cfg.symbols.platformAPI.items ++ cfg.modules.items.map (·.tag) ++
    [cfg.classification.defaultModule]

/-- The strings that a report may have whatever the text and the settings are. -/
def fixedTexts : List String :=
  fieldNames ++ Kind.forms.map Kind.label ++ IssueKind.rules.map IssueKind.label ++
    IssueKind.rules.map IssueKind.suggestion ++
    ["no opening brace", "unterminated region", "empty arrow body: no opening brace"]

/-- Where a string of a report comes from. Cuts and fixed texts are ASCII, so only the path and the settings
can bring in other characters, and these are repeated whole. -/
inductive Origin (cfg : Config) (path : String) (t : Bytes) : String → Prop
  | path : Origin cfg path t path
  | setting {x : String} (h : x ∈ cfg.reported) : Origin cfg path t x
  | fixed {x : String} (h : x ∈ fixedTexts) : Origin cfg path t x
  | cut {x : String} (h : Cut t x) : Origin cfg path t x
  | property {x : String} (h : Cut t x) : Origin cfg path t ("window." ++ x)
  | missing {x : String} (h : Cut t x) : Origin cfg path t (x ++ ": declaration header not found")

section Parts

variable {cfg : Config} {path x : String} {t : Bytes}

theorem origin_field : ∀ key ∈ fieldNames, Origin cfg path t key := fun key h => .fixed (by simp [fixedTexts, h])

theorem origin_kind {kind : Kind} (h : kind ∈ Kind.forms) : Origin cfg path t kind.label := by
  refine .fixed ?_
  simp only [fixedTexts, List.mem_append]
  exact .inl (.inl (.inl (.inr (List.mem_map_of_mem h))))

theorem origin_issue {kind : IssueKind} (h : kind ∈ IssueKind.rules) :
    Origin cfg path t kind.label ∧ Origin cfg path t kind.suggestion := by
  constructor
  · refine .fixed ?_
    simp only [fixedTexts, List.mem_append]
    exact .inl (.inl (.inr (List.mem_map_of_mem h)))
  · refine .fixed ?_
    simp only [fixedTexts, List.mem_append]
    exact .inl (.inr (List.mem_map_of_mem h))

/-! ## The registry -/

theorem cut_of_mem_names (hx : x ∈ (ofScored (scoredOf cfg t)).functions.map (·.name)) : Cut t x := by
  rw [names_ofScored, scoredOf, names_scored] at hx
  obtain ⟨e, he, rfl⟩ := List.mem_map.mp hx
  obtain ⟨d, hd, rfl⟩ := List.mem_map.mp he
  exact cut_name hd

theorem origin_name (hx : x ∈ (ofScored (scoredOf cfg t)).functions.map (·.name)) : Origin cfg path t x :=
  .cut (cut_of_mem_names hx)

/-- The names in a listing of the registry. -/
theorem origin_listing {f : Function} {l : Listing String} (h : ListsOthers (ofScored (scoredOf cfg t)) f l) :
    ∀ x ∈ l.items, Origin cfg path t x := by
  obtain ⟨names, rfl, -, hnames, -⟩ := h
  exact fun x hx => origin_name (hnames x hx)

theorem spells_functions {f : Function} (hf : f ∈ (ofScored (scoredOf cfg t)).functions) :
    f.toJson.Spells (Origin cfg path t) := by
  obtain ⟨hdependencies, hdependents⟩ := listsOthers_ofScored (scoredOf_nodup cfg t) hf
  exact spells_function origin_field (origin_name (List.mem_map_of_mem hf)) (origin_kind (kind_of_mem_functions hf))
    (origin_listing hdependencies) (origin_listing hdependents)

theorem spells_graph {p : String × GraphEntry} (hp : p ∈ (ofScored (scoredOf cfg t)).graph) :
    Origin cfg path t p.1 ∧ p.2.toJson.Spells (Origin cfg path t) := by
  obtain ⟨f, hf, rfl⟩ := List.mem_map.mp (Dict.mem_of_mem_ofList hp)
  have hf := List.mem_of_mem_filter hf
  obtain ⟨hdependencies, hdependents⟩ := listsOthers_ofScored (scoredOf_nodup cfg t) hf
  exact ⟨origin_name (List.mem_map_of_mem hf),
    spells_graphEntry origin_field (origin_listing hdependencies) (origin_listing hdependents)⟩

theorem origin_cycles {group : List String} (hgroup : group ∈ (ofScored (scoredOf cfg t)).cycles) :
    ∀ x ∈ group, Origin cfg path t x := by
  intro x hx
  rw [cycles_ofScored, ← names_ofScored] at hgroup
  obtain ⟨y, hy, rfl, -⟩ := mem_cycleGroups.mp hgroup
  exact origin_name ((mem_groupOf hy).mp hx).1

theorem origin_calls {p : String × List String} (hp : p ∈ (ofScored (scoredOf cfg t)).callSites) :
    Origin cfg path t p.1 ∧ ∀ x ∈ p.2, Origin cfg path t x := by
  obtain ⟨s, hs, hcalls⟩ := List.mem_filterMap.mp (Dict.mem_of_mem_ofList hp)
  obtain ⟨calls, hc, rfl⟩ := Option.map_eq_some_iff.mp hcalls
  refine ⟨origin_name (by rw [names_ofScored]; exact List.mem_map_of_mem hs), fun x hx => ?_⟩
  obtain ⟨e, -, rfl⟩ := List.mem_map.mp hs
  obtain ⟨span, -, hx⟩ := mem_calls_score.mp (show x ∈ (score t _ _ e).calls.getD [] by rwa [hc])
  exact .cut (cut_callSites hx)

/-! ## Modules, findings and counters -/

theorem origin_modules {p : String × List String}
    (hp : p ∈ (Classifier.ofConfig cfg).modules (ofScored (scoredOf cfg t)).functions) :
    Origin cfg path t p.1 ∧ ∀ x ∈ p.2, Origin cfg path t x := by
  constructor
  · refine .setting ?_
    simp only [Config.reported, List.mem_append, List.mem_singleton]
    obtain htag | hdefault := (Classifier.mem_keys_modules _ _).mp (List.mem_map_of_mem hp)
    · exact .inl (.inr htag)
    · exact .inr hdefault
  · intro x hx
    rw [Classifier.names_of_mem_modules _ _ hp] at hx
    obtain ⟨q, hq, rfl⟩ := List.mem_map.mp hx
    exact origin_name (List.mem_map_of_mem (List.of_mem_zip (List.mem_of_mem_filter hq)).2)

theorem spells_problems {p : Problem}
    (hp : p ∈ (Classifier.ofConfig cfg).problems (ofScored (scoredOf cfg t)).functions) :
    p.toJson.Spells (Origin cfg path t) := by
  obtain ⟨⟨f, hf, hname⟩, hkind, hsuggestion⟩ := exists_of_mem_problems hp
  obtain ⟨hlabel, hadvice⟩ := origin_issue hkind
  refine spells_problem origin_field ?_ hlabel ?_
  · rw [hname]
    exact origin_name (List.mem_map_of_mem hf)
  · rwa [hsuggestion]

/-- The holder of a record is a function, if there is one. -/
theorem origin_firstGreatest (measure : Function → Int)
    (h : (firstGreatest measure (ofScored (scoredOf cfg t)).functions).1 ≠ "") :
    Origin cfg path t (firstGreatest measure (ofScored (scoredOf cfg t)).functions).1 := by
  obtain ⟨-, -, hnone | ⟨f, hf, -, -, hholder⟩⟩ := firstGreatest_spec measure (ofScored (scoredOf cfg t)).functions
  · rw [hnone] at h
    exact absurd rfl h
  · rw [hholder]
    exact origin_name (List.mem_map_of_mem hf)

/-! ## The file as a whole -/

theorem origin_globalUsage {known : List String}
    (hx : x ∈ globalUsage cfg.symbols.globals.items ((Outline.ofText t).outside t) known) : Origin cfg path t x := by
  rw [globalUsage, mem_sortedSet, List.mem_append, List.mem_append] at hx
  obtain (hdeclared | hglobal) | hproperty := hx
  · obtain ⟨m, hm, rfl⟩ := List.mem_map.mp (List.mem_of_mem_filter hdeclared)
    exact .cut (cut_of_outside readsWord_variableForm hm)
  · refine .setting ?_
    simp only [Config.reported, List.mem_append]
    exact .inl (.inl (.inl (List.mem_of_mem_filter hglobal)))
  · obtain ⟨m, hm, rfl⟩ := List.mem_map.mp hproperty
    exact .property (cut_of_outside readsWord_windowForm hm)

theorem origin_platformUsage {outside : Bytes} (hx : x ∈ platformUsage cfg.symbols.platformAPI.items outside) :
    Origin cfg path t x := by
  refine .setting ?_
  simp only [Config.reported, List.mem_append]
  exact .inl (.inl (.inr (List.mem_of_mem_filter hx)))

/-- The reason why a body was not found. -/
theorem origin_reason {d : Declaration} (hd : d ∈ extract t) {err : ResolveError}
    (h : resolve t (Bytes.ofString d.name) = .error err) : Origin cfg path t (Bytes.ascii err.message) := by
  cases err with
  | headerNotFound other =>
    obtain ⟨hdeclaration, hexpression, hlambda⟩ := resolve_eq_headerNotFound h
    have hother : other = Bytes.ofString d.name := by
      simp only [resolve, hdeclaration, hexpression, hlambda] at h
      cases h
      rfl
    have hcut := cut_name hd
    have hmessage : ResolveError.message (.headerNotFound other) =
        Bytes.ofString (d.name ++ ": declaration header not found") := by
      rw [Bytes.ofString_append, hother]
      rfl
    have hascii : ∀ b ∈ Bytes.ofString (d.name ++ ": declaration header not found"), b.toNat < 128 := by
      rw [Bytes.ofString_append]
      exact List.forall_mem_append.mpr ⟨hcut.ascii, by decide +kernel⟩
    rw [hmessage, Bytes.ofString_injective (Bytes.ofString_ascii hascii)]
    exact .missing hcut
  | noRegion cause =>
    refine .fixed ?_
    cases cause <;> decide
  | emptyArrow => exact .fixed (by decide)

theorem spells_unresolved_outline {u : Unresolved} (hu : u ∈ (Outline.ofText t).unresolved) :
    (unresolvedJson u).Spells (Origin cfg path t) := by
  obtain ⟨e, he, hu⟩ := List.mem_filterMap.mp hu
  obtain ⟨d, hd, rfl⟩ := List.mem_map.mp he
  dsimp only at hu
  split at hu
  · cases hu
  · next err herr =>
    cases hu
    exact spells_unresolved origin_field (.cut (cut_name hd)) (origin_reason hd herr)

/-- **Every string of a result** comes from the path, the settings or the text, or is always the same. -/
theorem spells_resultOf (cfg : Config) (path : String) (t : Bytes) :
    (resultOf cfg path t).toJson.Spells (Origin cfg path t) := by
  have hpairs : ∀ (d : Dict (List String)), (∀ p ∈ d, Origin cfg path t p.1 ∧ ∀ x ∈ p.2, Origin cfg path t x) →
      ∀ p ∈ d.map (fun p => (p.1, some p.2)), Origin cfg path t p.1 ∧ ∀ x ∈ Listing.items p.2, Origin cfg path t x :=
    fun d h => List.forall_mem_map.mpr h
  refine spells_result origin_field ?_ (hpairs _ fun p hp => origin_calls hp)
  refine spells_report origin_field .path ?_ (fun f hf => spells_functions hf)
    (hpairs _ fun p hp => origin_modules hp) (fun p hp => spells_graph hp) (fun p hp => spells_problems hp)
    (fun x hx => origin_globalUsage hx) (fun x hx => origin_platformUsage hx)
    (fun x hx => .cut (cut_elementIds hx)) ?_ (fun u hu => spells_unresolved_outline hu)
  · exact spells_summary origin_field (origin_firstGreatest _) (origin_firstGreatest _)
  · exact List.forall_mem_map.mpr fun group hgroup => origin_cycles hgroup

end Parts

/-! ## The analysis of a well-formed text -/

/-- What the analysis keeps of the characters of a text: bodies begin and end between characters, so they are
well-formed, as is the text outside of them, the strings of the result are cut out whole, and its JSON gives
back every one of them, pretty or compact. -/
structure CutBetweenCharacters (cfg : Config) (path : String) (t : Bytes) (r : FileResult) : Prop where
  bodies : ∀ p ∈ (Outline.ofText t).spans, p.2.Bounded t ∧ Utf8.isValid (p.2.body t) = true
  outside : Utf8.isValid ((Outline.ofText t).outside t) = true
  strings : ∀ x ∈ r.toJson.texts, Origin cfg path t x
  printed : Json.read? (Bytes.ofString (r.report.toJson.pretty ++ "\n")) = some r.report.toJson
  kept : Json.read? (Bytes.ofString r.toJson.compact) = some r.toJson

/-- **Texts are cut between characters.** The analysis of a well-formed text gives a result, none of whose
strings has a part of a character. -/
theorem analyze_cuts_between_characters (cfg : Config) (path : String) {content : Bytes}
    (h : Utf8.isValid content = true) :
    ∃ r, analyze cfg path content = .ok r ∧ CutBetweenCharacters cfg path content r := by
  refine ⟨resultOf cfg path content, if_pos h, ?_⟩
  exact
    { bodies := fun p hp => by
        obtain ⟨hbounded, hfits⟩ := Outline.bounded_of_mem_spans h hp
        exact ⟨hbounded, hbounded.isValid_body h hfits⟩
      outside := Outline.isValid_outside h
      strings := spells_resultOf cfg path content
      printed := Json.read?_pretty ((readable_report (n := 0) _).mono (by decide))
      kept := Json.read?_compact ((readable_result (n := 0) _).mono (by decide)) }

/-- Characters of two, three and four bytes in the head and the body of an arrow function, and after it. -/
theorem analyze_cuts_between_characters_umlauts :
    let t := Bytes.ofString "const f = (ä) => `€` + g(ö)\n/* 🎈 */ class A \x7b m() \x7b `ß` \x7d \x7d"
    Utf8.isValid t = true ∧ (Outline.ofText t).spans = [("f", ⟨6, 18, 30, true⟩)] ∧
      ∃ r, analyze .default "maße.js" t = .ok r ∧ CutBetweenCharacters .default "maße.js" t r := by
  intro t
  have hvalid : Utf8.isValid t = true := by decide +kernel
  exact ⟨hvalid, by decide, analyze_cuts_between_characters .default "maße.js" hvalid⟩

end ScriptSplit
