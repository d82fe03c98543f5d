import Mathlib
import ScriptSplit.Analysis.Project
import ScriptSplit.Proofs.Report.RoundTrip

/-!
# What a fingerprint stands for

The text that is hashed determines every setting that the report on a file depends on, and the key of
a file determines its path and the hash.

* `Config.Agree`: two settings have the same sections, of those that matter.
* **`agree_of_preimage`**: settings with the same text agree.
* **`Agree.analyze`**: settings that agree give the same results.
* **`preimage_determines`**: the bytes that are hashed are the same exactly for settings that agree.
* **`key_injective`**: keys are told apart by path and hash.
-/

namespace ScriptSplit

/-! ## The text -/

namespace Json

theorem int_injective : Function.Injective int := by
  intro n m h
  have hn := literalInt?_toString n
  rw [number.inj h, literalInt?_toString] at hn
  exact (Option.some.inj hn).symm

theorem listing_injective {α : Type} {encode : α → Json} (h : Function.Injective encode) :
    Function.Injective (Listing.toJson encode) := by
  intro l m hlm
  cases l with
  | none =>
    cases m with
    | none => rfl
    | some items => cases hlm
  | some items =>
    cases m with
    | none => cases hlm
    | some items' => rw [h.list_map (array.inj hlm)]

theorem names_injective : Function.Injective namesJson := listing_injective fun _ _ h => string.inj h

end Json

namespace Config

theorem ruleJson_injective : Function.Injective ruleJson := by
  intro m m' h
  obtain ⟨tag, keywords⟩ := m
  obtain ⟨tag', keywords'⟩ := m'
  simp only [ruleJson, Json.object.injEq, List.cons.injEq, Prod.mk.injEq, Json.string.injEq, true_and,
    and_true] at h
  rw [h.1, Json.names_injective h.2]

theorem readable_rule {n : Nat} (m : ModuleRule) : (ruleJson m).Readable (n + 2) := by simp [ruleJson]

theorem readable_preimage {n : Nat} (cfg : Config) : cfg.preimageJson.Readable (n + 4) := by
  have hrules := Json.readable_listing (readable_rule (n := n)) cfg.modules
  simp [preimageJson, hrules]

/-- The sections that the report on a file depends on are the same. -/
structure Agree (cfg cfg' : Config) : Prop where
  thresholds : cfg.thresholds = cfg'.thresholds
  symbols : cfg.symbols = cfg'.symbols
  modules : cfg.modules = cfg'.modules
  classification : cfg.classification = cfg'.classification

/-- **Settings with the same text** agree in every section that matters. -/
theorem agree_of_preimage {cfg cfg' : Config} (h : cfg.preimage = cfg'.preimage) : Agree cfg cfg' := by
  have hjson := Json.compact_injective (readable_preimage cfg) (readable_preimage cfg') h
  simp only [preimageJson, Json.object.injEq, List.cons.injEq, Prod.mk.injEq, Json.string.injEq, true_and,
    and_true] at hjson
  obtain ⟨⟨hdependencies, hdependents, hcomplexity⟩, ⟨hglobals, hplatform⟩, hmodules, hdefault,
    hpolicy⟩ := hjson
  obtain ⟨⟨_, _, _⟩, ⟨_, _⟩, _, ⟨_, _⟩, _, _, _, _⟩ := cfg
  obtain ⟨⟨_, _, _⟩, ⟨_, _⟩, _, ⟨_, _⟩, _, _, _, _⟩ := cfg'
  cases Json.int_injective hdependencies
  cases Json.int_injective hdependents
  cases Json.int_injective hcomplexity
  cases Json.names_injective hglobals
  cases Json.names_injective hplatform
  cases Json.listing_injective ruleJson_injective hmodules
  cases hdefault
  cases hpolicy
  exact ⟨rfl, rfl, rfl, rfl⟩

/-- **Settings that agree** give the same results. -/
theorem Agree.analyze {cfg cfg' : Config} (h : Agree cfg cfg') (path : String) (content : Bytes) :
    analyze cfg path content = analyze cfg' path content := by
  have hclassifier : Classifier.ofConfig cfg = Classifier.ofConfig cfg' := by
    unfold Classifier.ofConfig
    rw [h.thresholds, h.modules, h.classification]
  unfold ScriptSplit.analyze resultOf
  rw [h.symbols, hclassifier]

theorem Agree.preimage {cfg cfg' : Config} (h : Agree cfg cfg') : cfg.preimage = cfg'.preimage := by
  unfold Config.preimage preimageJson
  rw [h.thresholds, h.symbols, h.modules, h.classification]

theorem preimage_bytes_iff {cfg cfg' : Config} :
    Bytes.ofString cfg.preimage = Bytes.ofString cfg'.preimage ↔ Agree cfg cfg' :=
  ⟨fun h => agree_of_preimage (Bytes.ofString_injective h), fun h => congrArg Bytes.ofString h.preimage⟩

/-- **The bytes that are hashed determine the settings that matter**: they are the same exactly if the settings
agree, and then every file has the same result. -/
theorem preimage_determines (cfg cfg' : Config) :
    (Bytes.ofString cfg.preimage = Bytes.ofString cfg'.preimage ↔
      cfg.thresholds = cfg'.thresholds ∧ cfg.symbols = cfg'.symbols ∧ cfg.modules = cfg'.modules ∧
        cfg.classification = cfg'.classification) ∧
    (Bytes.ofString cfg.preimage = Bytes.ofString cfg'.preimage →
      ∀ path content, analyze cfg path content = analyze cfg' path content) := by
  constructor
  · rw [preimage_bytes_iff]
    exact ⟨fun h => ⟨h.thresholds, h.symbols, h.modules, h.classification⟩,
      fun ⟨hthresholds, hsymbols, hmodules, hclassification⟩ =>
        ⟨hthresholds, hsymbols, hmodules, hclassification⟩⟩
  · intro h
    exact (preimage_bytes_iff.mp h).analyze

/-- The default settings for other files, with a cache and another view. -/
def elsewhere : Config :=
  { default with
    scan := ⟨some [".ts"], some ["src/**"], 4096, 2⟩
    exclude := ⟨none, some [], true⟩
    cache := ⟨true, "store", 0⟩
    output := ⟨"json", false⟩ }

/-- Settings that mark the given names as global, without a module table. -/
def withGlobals (globals : Listing String) : Config :=
  { default with symbols := ⟨globals, none⟩, modules := none }

/-- What is scanned, kept and shown does not matter. A bracket is not mistaken for the text that it is written
as, nor a list without names for none. -/
theorem preimage_determines_elsewhere :
    Bytes.ofString default.preimage = Bytes.ofString elsewhere.preimage ∧
    (∀ path content, analyze default path content = analyze elsewhere path content) ∧
    Bytes.ofString (withGlobals (some ["<"])).preimage ≠ Bytes.ofString (withGlobals (some ["\\u003c"])).preimage ∧
    Bytes.ofString (withGlobals none).preimage ≠ Bytes.ofString (withGlobals (some [])).preimage := by
  have hsame := (preimage_determines default elsewhere).1.mpr ⟨rfl, rfl, rfl, rfl⟩
  refine ⟨hsame, (preimage_determines default elsewhere).2 hsame, fun h => ?_, fun h => ?_⟩
  · have hsymbols := ((preimage_determines _ _).1.mp h).2.1
    exact absurd hsymbols (by decide)
  · have hsymbols := ((preimage_determines _ _).1.mp h).2.1
    exact absurd hsymbols (by decide)

end Config

/-! ## Keys -/

theorem digitChar_ne_at : ∀ k < 16, Nat.digitChar k ≠ '@' := by decide

theorem at_not_mem_toDigits (n : Nat) : '@' ∉ Nat.toDigits 16 n := by
  induction n using Nat.strongRecOn with
  | ind n ih =>
    by_cases hn : n < 16
    · rw [Nat.toDigits_of_lt_base hn, List.mem_singleton]
      exact (digitChar_ne_at n hn).symm
    · rw [Nat.toDigits_of_base_le (by decide) (by omega), List.mem_append, List.mem_singleton]
      rintro (hmem | hlast)
      · exact ih (n / 16) (by omega) hmem
      · exact digitChar_ne_at _ (Nat.mod_lt n (by decide)) hlast.symm

theorem at_not_mem_fingerprint (cfg : Config) : '@' ∉ cfg.fingerprint.toList := by
  unfold Config.fingerprint Hash.XXHash64.hex
  rw [String.toList_ofList]
  exact at_not_mem_toDigits _

theorem append_mark_inj {α : Type} {mark : α} {x x' y y' : List α} (hx : mark ∉ x) (hx' : mark ∉ x')
    (h : x ++ mark :: y = x' ++ mark :: y') : x = x' ∧ y = y' := by
  induction x generalizing x' with
  | nil =>
    cases x' with
    | nil => exact ⟨rfl, (List.cons.inj h).2⟩
    | cons a x' =>
      cases (List.cons.inj h).1
      exact absurd List.mem_cons_self hx'
  | cons a x ih =>
    cases x' with
    | nil =>
      cases (List.cons.inj h).1
      exact absurd List.mem_cons_self hx
    | cons b x' =>
      obtain ⟨rfl, htail⟩ := List.cons.inj h
      obtain ⟨rfl, rfl⟩ := ih (List.not_mem_of_not_mem_cons hx) (List.not_mem_of_not_mem_cons hx') htail
      exact ⟨rfl, rfl⟩

/-- **A key determines the path and the fingerprint**, though a path may hold the mark between them. -/
theorem key_injective {display display' : String} {cfg cfg' : Config}
    (h : display ++ "@" ++ cfg.fingerprint = display' ++ "@" ++ cfg'.fingerprint) :
    display = display' ∧ cfg.fingerprint = cfg'.fingerprint := by
  -- read from the end, the first mark is the one between them
  have hlist := congrArg (fun s => s.toList.reverse) h
  simp only [String.toList_append, List.reverse_append] at hlist
  change cfg.fingerprint.toList.reverse ++ '@' :: display.toList.reverse =
    cfg'.fingerprint.toList.reverse ++ '@' :: display'.toList.reverse at hlist
  have hmark : ∀ c : Config, '@' ∉ c.fingerprint.toList.reverse := fun c =>
    List.mem_reverse.not.mpr (at_not_mem_fingerprint c)
  obtain ⟨hprint, hpath⟩ := append_mark_inj (hmark cfg) (hmark cfg') hlist
  exact ⟨String.toList_inj.mp (List.reverse_injective hpath),
    String.toList_inj.mp (List.reverse_injective hprint)⟩

end ScriptSplit
