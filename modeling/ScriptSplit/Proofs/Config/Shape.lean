import Mathlib
import ScriptSplit.Config.Shape
import ScriptSplit.Proofs.Format.Range
import ScriptSplit.Proofs.Text.Sorted

/-!
# What a shape accepts

* `Shape.Accepts`: a value has a shape, said without places and texts.
* **`Shape.violations_eq_nil_iff`**: nothing departs from a shape exactly if the shape accepts the value.
* `Shape.at?`: the shapes of the places in a table; `Shape.Accepts.at?`: what stands there has the shape.
* `Shape.Dateless`: no date stands for a text.
* `shapeViolations_eq_nil_iff`: the verdict on a settings file.
-/

namespace ScriptSplit

/-- The value at a place: under each of the keys in turn. -/
def Datum.at? : List String → Datum → Option Datum
  | [], d => some d
  | key :: rest, d => (d.field? key).bind (at? rest)

theorem Datum.InRange.at? {place : List String} {d x : Datum} (hd : d.InRange) (hx : d.at? place = some x) :
    x.InRange := by
  induction place generalizing d with
  | nil =>
    cases hx
    exact hd
  | cons key rest ih =>
    obtain ⟨y, hy, hx⟩ := Option.bind_eq_some_iff.mp hx
    exact ih (hd.field? hy) hx

namespace Shape

/-- The value has the shape; `dates` says whether a date counts as a text. -/
inductive Accepts (dates : Bool) : Shape → Datum → Prop where
  | count {d : Datum} {n : Int} (hd : d.integer? = some n) (hn : 0 ≤ n) : Accepts dates .count d
  | text {nonEmpty : Bool} {s : String} (hs : nonEmpty = true → s ≠ "") : Accepts dates (.text nonEmpty) (.text s)
  | date {nonEmpty : Bool} (hdates : dates = true) : Accepts dates (.text nonEmpty) .moment
  | bool (b : Bool) : Accepts dates .bool (.bool b)
  | oneOf {words : List String} {s : String} (hs : s ∈ words) : Accepts dates (.oneOf words) (.text s)
  | list {item : Shape} {items : List Datum} (hitems : ∀ x ∈ items, Accepts dates item x) :
      Accepts dates (.list item) (.list items)
  | table {shapes : List (String × Shape)} {required : List String} {fields : List (String × Datum)}
      (hrequired : ∀ key ∈ required, (fields.lookup key).isSome)
      (hknown : ∀ f ∈ fields, f.1 ∈ shapes.map Prod.fst)
      (hfields : ∀ key shape x, (key, shape) ∈ shapes → fields.lookup key = some x → Accepts dates shape x) :
      Accepts dates (.table shapes required) (.table fields)

theorem Accepts.lax {shape : Shape} {d : Datum} (h : shape.Accepts false d) : shape.Accepts true d := by
  induction h with
  | count hd hn => exact .count hd hn
  | text hs => exact .text hs
  | date hdates => cases hdates
  | bool b => exact .bool b
  | oneOf hs => exact .oneOf hs
  | list _ ih => exact .list ih
  | table hrequired hknown _ ih => exact .table hrequired hknown ih

/-! ## Departures -/

theorem violations_count_iff {path : List String} {d : Datum} :
    violations path .count d = [] ↔ Accepts true .count d := by
  rw [violations]
  constructor
  · intro h
    split at h
    · rename_i n hn
      split_ifs at h with hneg
      exact .count hn (not_lt.mp hneg)
    · cases h
  · rintro (⟨hd, hn⟩ | _)
    simp [hd, hn]

theorem violations_text_iff {path : List String} {nonEmpty : Bool} {d : Datum} :
    violations path (.text nonEmpty) d = [] ↔ Accepts true (.text nonEmpty) d := by
  unfold violations
  constructor
  · intro h
    split at h
    · rename_i s
      split_ifs at h with hempty
      exact .text fun hnonEmpty hs => hempty (by simp [hnonEmpty, hs])
    · exact .date rfl
    · cases h
  · intro h
    cases h with
    | text hs =>
      simp only [ite_eq_right_iff, Bool.and_eq_true, decide_eq_true_eq]
      exact fun hempty => absurd hempty.2 (hs hempty.1)
    | date => rfl

theorem violations_bool_iff {path : List String} {d : Datum} :
    violations path .bool d = [] ↔ Accepts true .bool d := by
  unfold violations
  constructor
  · intro h
    split at h
    · exact .bool _
    · cases h
  · rintro ⟨b⟩
    rfl

theorem violations_oneOf_iff {path : List String} {words : List String} {d : Datum} :
    violations path (.oneOf words) d = [] ↔ Accepts true (.oneOf words) d := by
  unfold violations
  constructor
  · intro h
    split at h
    · split_ifs at h with hmem
      exact .oneOf (by simpa using hmem)
    · cases h
  · intro h
    cases h with
    | oneOf hs => simp [hs]

theorem violations_table_iff {path : List String} {shapes : List (String × Shape)} {required : List String}
    (hshapes : ∀ fields, fieldViolations path shapes fields = [] ↔
      ∀ key shape x, (key, shape) ∈ shapes → fields.lookup key = some x → Accepts true shape x) {d : Datum} :
    violations path (.table shapes required) d = [] ↔ Accepts true (.table shapes required) d := by
  cases d with
  | table fields =>
    unfold violations
    simp only [List.append_eq_nil_iff, and_assoc, hshapes]
    constructor
    · rintro ⟨habsent, hother, hfields⟩
      exact .table (by simpa [List.filter_eq_nil_iff, Option.isSome_iff_ne_none] using habsent)
        (by simpa [List.filter_eq_nil_iff] using hother) hfields
    · intro h
      cases h with
      | table hrequired hknown hfields =>
        exact ⟨by simpa [List.filter_eq_nil_iff, Option.isSome_iff_ne_none] using hrequired,
          by simpa [List.filter_eq_nil_iff] using hknown, hfields⟩
  | _ => exact iff_of_false (by simp [violations, wrongType]) (by rintro ⟨⟩)

mutual

/-- **Nothing departs from a shape** exactly if the shape accepts the value, dates counted as texts. -/
theorem violations_eq_nil_iff : (shape : Shape) → (path : List String) → (d : Datum) →
    (shape.violations path d = [] ↔ shape.Accepts true d)
  | .count, path, d => violations_count_iff
  | .text nonEmpty, path, d => violations_text_iff
  | .bool, path, d => violations_bool_iff
  | .oneOf words, path, d => violations_oneOf_iff
  | .list item, path, d => by
    unfold violations
    constructor
    · intro h
      split at h
      · rename_i items
        refine .list fun x hx => ?_
        obtain ⟨i, hi, rfl⟩ := List.getElem_of_mem hx
        have hmem : (items[i], i) ∈ items.zipIdx := List.mk_mem_zipIdx_iff_getElem?.mpr (List.getElem?_eq_getElem hi)
        exact (violations_eq_nil_iff item _ _).mp (List.flatMap_eq_nil_iff.mp h _ hmem)
      · cases h
    · intro h
      cases h with
      | list hitems =>
        refine List.flatMap_eq_nil_iff.mpr fun p hp => ?_
        exact (violations_eq_nil_iff item _ p.1).mpr (hitems p.1 (List.fst_mem_of_mem_zipIdx hp))
  | .table shapes required, path, d => violations_table_iff (fieldViolations_eq_nil_iff shapes path)

theorem fieldViolations_eq_nil_iff : (shapes : List (String × Shape)) → (path : List String) →
    (fields : List (String × Datum)) → (fieldViolations path shapes fields = [] ↔
      ∀ key shape x, (key, shape) ∈ shapes → fields.lookup key = some x → shape.Accepts true x)
  | [], path, fields => by simp [fieldViolations]
  | (key, shape) :: rest, path, fields => by
    have hhead : (fields.lookup key).elim [] (violations (path ++ [key]) shape) = [] ↔
        ∀ x, fields.lookup key = some x → shape.Accepts true x := by
      cases hx : fields.lookup key with
      | none => simp
      | some x => simpa using violations_eq_nil_iff shape _ x
    -- the match of the definition as an eliminator, which `hhead` speaks of
    have hcons : fieldViolations path ((key, shape) :: rest) fields =
        (fields.lookup key).elim [] (violations (path ++ [key]) shape) ++ fieldViolations path rest fields := by
      rw [fieldViolations]
      cases fields.lookup key <;> rfl
    rw [hcons, List.append_eq_nil_iff, hhead, fieldViolations_eq_nil_iff rest path fields]
    constructor
    · rintro ⟨hkey, hrest⟩ key' shape' x hmem hx
      rcases List.mem_cons.mp hmem with heq | hmem
      · cases heq
        exact hkey x hx
      · exact hrest key' shape' x hmem hx
    · exact fun h => ⟨fun x => h key shape x List.mem_cons_self,
        fun key' shape' x hmem => h key' shape' x (List.mem_cons_of_mem _ hmem)⟩

end

/-! ## Places -/

/-- The shape of the values at a place. -/
def at? : List String → Shape → Option Shape
  | [], shape => some shape
  | key :: rest, .table shapes _ => (shapes.lookup key).bind (at? rest)
  | _ :: _, _ => none

theorem Accepts.at? {dates : Bool} {place : List String} {shape leaf : Shape} {d x : Datum}
    (hd : shape.Accepts dates d) (hleaf : shape.at? place = some leaf) (hx : d.at? place = some x) :
    leaf.Accepts dates x := by
  induction place generalizing shape d with
  | nil =>
    cases hleaf
    cases hx
    exact hd
  | cons key rest ih =>
    cases hd with
    | table hrequired hknown hfields =>
      obtain ⟨inner, hinner, hleaf⟩ := Option.bind_eq_some_iff.mp hleaf
      obtain ⟨y, hy, hx⟩ := Option.bind_eq_some_iff.mp hx
      exact ih (hfields key inner y (Dict.mem_of_lookup hinner) hy) hleaf hx
    | _ => cases hleaf

/-! ## Dates -/

/-- The value has the shape without its dates too. -/
def Dateless (shape : Shape) (d : Datum) : Prop := shape.Accepts true d → shape.Accepts false d

theorem dateless_count {d : Datum} : Dateless .count d := by
  rintro (⟨hd, hn⟩ | _)
  exact .count hd hn

theorem dateless_bool {d : Datum} : Dateless .bool d := by
  intro h
  cases h with
  | bool b => exact .bool b

theorem dateless_text {shape : Shape} {s : String} : Dateless shape (.text s) := by
  intro h
  cases h with
  | count hd hn => exact .count hd hn
  | text hs => exact .text hs
  | oneOf hs => exact .oneOf hs

theorem dateless_list {item : Shape} {items : List Datum} (h : ∀ x ∈ items, Dateless item x) :
    Dateless (.list item) (.list items) := by
  intro hd
  cases hd with
  | list hitems => exact .list fun x hx => h x hx (hitems x hx)

theorem dateless_table {shapes : List (String × Shape)} {required : List String} {d : Datum}
    (h : ∀ f ∈ shapes, ∀ x, d.field? f.1 = some x → Dateless f.2 x) : Dateless (.table shapes required) d := by
  intro hd
  cases hd with
  | table hrequired hknown hfields =>
    exact .table hrequired hknown fun key shape x hmem hx => h (key, shape) hmem x hx (hfields key shape x hmem hx)

end Shape

theorem shapeViolations_eq_nil_iff {d : Datum} : shapeViolations d = [] ↔ settingsShape.Accepts true d := by
  rw [← Shape.violations_eq_nil_iff settingsShape [] d, shapeViolations]
  have hlength := (sortStrings_perm ((settingsShape.violations [] d).map Violation.message)).length_eq
  rw [← List.length_eq_zero_iff, hlength, List.length_map, List.length_eq_zero_iff]

end ScriptSplit
