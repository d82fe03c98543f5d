import Mathlib
import ScriptSplit.Format.Datum
import ScriptSplit.Number.Word64
import ScriptSplit.Proofs.Text.Sorted

/-!
# The range of numbers

The whole numbers of a document lie within 64 bits, with or without a sign. JSON says no whole numbers at all,
as all its numbers are binary ones.

* `Datum.InRange`: all whole numbers in a value lie within 64 bits.
* **`Datum.inRange_ofJson?`**: what a JSON text says is in range.
-/

namespace ScriptSplit

namespace Datum

mutual

/-- All whole numbers in the value lie within 64 bits. -/
def InRange : Datum → Prop
  | int n => Word64.fits n = true ∨ Word64.fitsUnsigned n = true
  | list items => ItemsInRange items
  | table fields => FieldsInRange fields
  | _ => True

/-- The items are in range. -/
def ItemsInRange : List Datum → Prop
  | [] => True
  | x :: rest => InRange x ∧ ItemsInRange rest

/-- The values of the fields are in range. -/
def FieldsInRange : List (String × Datum) → Prop
  | [] => True
  | (_, x) :: rest => InRange x ∧ FieldsInRange rest

end

theorem itemsInRange_iff {items : List Datum} : ItemsInRange items ↔ ∀ x ∈ items, x.InRange := by
  induction items with
  | nil => simp [ItemsInRange]
  | cons x rest ih => rw [ItemsInRange, ih, List.forall_mem_cons]

theorem fieldsInRange_iff {fields : List (String × Datum)} :
    FieldsInRange fields ↔ ∀ f ∈ fields, f.2.InRange := by
  induction fields with
  | nil => simp [FieldsInRange]
  | cons f rest ih =>
    obtain ⟨key, x⟩ := f
    rw [FieldsInRange, ih, List.forall_mem_cons]

theorem inRange_list {items : List Datum} : (list items).InRange ↔ ∀ x ∈ items, x.InRange := by
  rw [InRange, itemsInRange_iff]

theorem inRange_table {fields : List (String × Datum)} : (table fields).InRange ↔ ∀ f ∈ fields, f.2.InRange := by
  rw [InRange, fieldsInRange_iff]

theorem InRange.field? {d x : Datum} (h : d.InRange) {key : String} (hx : d.field? key = some x) : x.InRange := by
  cases d with
  | table fields => exact inRange_table.mp h _ (Dict.mem_of_lookup hx)
  | _ => cases hx

/-! ## JSON -/

mutual

/-- All numbers of JSON are binary ones. -/
theorem inRange_ofJson? : (x : Json) → (d : Datum) → ofJson? x = some d → d.InRange
  | .null, d, h => by
    cases h
    trivial
  | .bool b, d, h => by
    cases h
    trivial
  | .string s, d, h => by
    cases h
    trivial
  | .number literal, d, h => by
    rw [ofJson?] at h
    obtain ⟨r, -, h⟩ := Option.bind_eq_some_iff.mp h
    split_ifs at h
    cases h
    trivial
  | .array items, d, h => by
    rw [ofJson?] at h
    obtain ⟨ds, hds, rfl⟩ := Option.map_eq_some_iff.mp h
    exact inRange_list.mpr (inRange_itemsOfJson? items ds hds)
  | .object fields, d, h => by
    rw [ofJson?] at h
    obtain ⟨fs, hfs, rfl⟩ := Option.map_eq_some_iff.mp h
    exact inRange_table.mpr fun f hf => inRange_fieldsOfJson? fields fs hfs f (Dict.mem_of_mem_ofList hf)

theorem inRange_itemsOfJson? : (items : List Json) → (ds : List Datum) → itemsOfJson? items = some ds →
    ∀ d ∈ ds, d.InRange
  | [], ds, h => by
    cases h
    simp
  | x :: rest, ds, h => by
    rw [itemsOfJson?] at h
    obtain ⟨d, hd, h⟩ := Option.bind_eq_some_iff.mp h
    obtain ⟨more, hmore, h⟩ := Option.bind_eq_some_iff.mp h
    cases h
    exact List.forall_mem_cons.mpr ⟨inRange_ofJson? x d hd, inRange_itemsOfJson? rest more hmore⟩

theorem inRange_fieldsOfJson? : (fields : List (String × Json)) → (fs : List (String × Datum)) →
    fieldsOfJson? fields = some fs → ∀ f ∈ fs, f.2.InRange
  | [], fs, h => by
    cases h
    simp
  | (key, x) :: rest, fs, h => by
    rw [fieldsOfJson?] at h
    obtain ⟨d, hd, h⟩ := Option.bind_eq_some_iff.mp h
    obtain ⟨more, hmore, h⟩ := Option.bind_eq_some_iff.mp h
    cases h
    exact List.forall_mem_cons.mpr ⟨inRange_ofJson? x d hd, inRange_fieldsOfJson? rest more hmore⟩

end

end Datum

end ScriptSplit
