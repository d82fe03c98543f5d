import Mathlib
import ScriptSplit.Format.Yaml.Reader
import ScriptSplit.Proofs.Format.Range

/-!
# The range of numbers in YAML

A scalar is a whole number only if it fits in 64 bits. Decoding takes trees apart and puts what their parts say
together, whichever way entries are taken over from other mappings.

* `Yaml.Value.InRange`, `Yaml.inRange_scalarValue?`: scalars are in range.
* `Yaml.Decode.Gives`: what the answer of a step of decoding satisfies.
* `Yaml.datum_gives`: what a tree says is in range.
* **`Yaml.inRange_read?`**: what a text says is in range.
-/

namespace ScriptSplit.Yaml


/-- A whole number within 64 bits. -/
def Value.InRange : Value → Prop
  | int n => Word64.fits n = true ∨ Word64.fitsUnsigned n = true
  | _ => True

theorem inRange_bounded? {signed : Bool} {n m : Int} (h : bounded? signed n = some m) :
    Word64.fits m = true ∨ Word64.fitsUnsigned m = true := by
  unfold bounded? at h
  split_ifs at h with hfits hunsigned
  · exact .inl (Option.some.inj h ▸ hfits)
  · exact .inr (Option.some.inj h ▸ (Bool.and_eq_true_iff.mp hunsigned).2)

theorem inRange_signedInBase? {base : Nat} {cs : List Char} {m : Int} (h : signedInBase? base cs = some m) :
    Word64.fits m = true ∨ Word64.fitsUnsigned m = true := by
  simp only [signedInBase?, Option.bind_eq_bind, Option.bind_eq_some_iff] at h
  obtain ⟨n, -, h⟩ := h
  exact inRange_bounded? h

theorem inRange_int? {cs : List Char} {m : Int} (h : int? cs = some m) :
    Word64.fits m = true ∨ Word64.fitsUnsigned m = true := by
  unfold int? at h
  dsimp only at h
  split at h <;> (obtain ⟨n, -, h⟩ := Option.bind_eq_some_iff.mp h; exact inRange_bounded? h)

theorem inRange_number? {cs : List Char} {m : Int} (h : Scalar.number? cs = some (.int m)) :
    Word64.fits m = true ∨ Word64.fitsUnsigned m = true := by
  unfold Scalar.number? at h
  dsimp only at h
  split at h
  · rename_i n hn
    cases h
    exact inRange_int? hn
  split at h
  · cases h
  split at h
  · obtain ⟨n, hn, h⟩ := Option.map_eq_some_iff.mp h
    cases h
    exact inRange_signedInBase? hn
  · obtain ⟨n, hn, h⟩ := Option.map_eq_some_iff.mp h
    cases h
    exact inRange_signedInBase? hn
  · cases h

theorem inRange_ofPlain {s : String} {m : Int} (h : Scalar.ofPlain s = .int m) :
    Word64.fits m = true ∨ Word64.fitsUnsigned m = true := by
  unfold Scalar.ofPlain at h
  split at h
  · rename_i v hv
    subst h
    unfold Scalar.ofWord? at hv
    split_ifs at hv <;> cases hv
  split at h
  · cases h
  split_ifs at h
  · split at h
    · cases h
    · cases h
  · split at h
    · cases h
    · rename_i c r hchars _ _ _ _
      cases hnumber : Scalar.number? (c :: r) with
      | none =>
        rw [hnumber] at h
        cases h
      | some v =>
        rw [hnumber, Option.getD_some] at h
        exact inRange_number? (h ▸ hnumber)

theorem Value.inRange_ofPlain (s : String) : (Value.ofPlain s).InRange := by
  unfold Value.ofPlain
  split
  case h_3 n hn => exact Yaml.inRange_ofPlain hn
  all_goals trivial

theorem inRange_scalarValue? {tag text : String} {plain : Bool} {v : Value}
    (h : scalarValue? tag text plain = some v) : v.InRange := by
  have hplain := Value.inRange_ofPlain text
  unfold scalarValue? at h
  split at h
  · split_ifs at h
    · cases h
      exact hplain
    · cases h
      trivial
  · rename_i n hn
    cases h
    exact hn ▸ hplain
  · split_ifs at h
    cases h
    trivial
  · cases h
    trivial
  · cases h
    trivial
  · cases h
    trivial
  · cases h
    trivial
  · cases h
    trivial
  · obtain ⟨t, -, h⟩ := Option.map_eq_some_iff.mp h
    cases h
    trivial
  · split_ifs at h
    cases h
    trivial

theorem Value.InRange.toDatum? {v : Value} (h : v.InRange) {d : Datum} (hd : v.toDatum? = some d) : d.InRange := by
  cases v with
  | int n =>
    cases hd
    exact h
  | moment m =>
    simp only [Value.toDatum?] at hd
    split_ifs at hd
    cases hd
    trivial
  | _ =>
    cases hd
    trivial

/-- The values of all entries are in range. -/
def Fields.InRange (fields : Fields) : Prop := ∀ f ∈ fields, f.2.InRange

theorem Fields.InRange.put {fields : Fields} (h : fields.InRange) (k : Value) {d : Datum} (hd : d.InRange) :
    (fields.put k d).InRange := by
  induction fields with
  | nil => exact fun f hf => List.mem_singleton.mp hf ▸ hd
  | cons f rest ih =>
    obtain ⟨hfirst, hrest⟩ := List.forall_mem_cons.mp h
    rw [Fields.put]
    split_ifs
    · exact List.forall_mem_cons.mpr ⟨hd, hrest⟩
    · exact List.forall_mem_cons.mpr ⟨hfirst, ih hrest⟩

theorem Fields.InRange.table {fields : Fields} (h : fields.InRange) : fields.table.InRange := by
  refine Datum.inRange_table.mpr fun f hf => ?_
  obtain ⟨f', hf', rfl⟩ := List.mem_map.mp (Dict.mem_of_mem_ofList hf)
  exact h f' hf'

section Decode

variable {α β : Type}

/-- What the answer of a step of decoding satisfies, if it has one. -/
def Decode.Gives (x : Decode α) (p : α → Prop) : Prop := ∀ t a t', x t = some (a, t') → p a

theorem Decode.Gives.bind {x : Decode α} {f : α → Decode β} {p : α → Prop} {q : β → Prop} (hx : x.Gives p)
    (hf : ∀ a, p a → (f a).Gives q) : (x >>= f).Gives q := by
  intro t b t' h
  obtain ⟨⟨a, s⟩, ha, hb⟩ := Option.bind_eq_some_iff.mp h
  exact hf a (hx t a s ha) s b t' hb

theorem Decode.gives_pure {p : α → Prop} {a : α} (h : p a) : (pure a : Decode α).Gives p := by
  intro t b t' hb
  cases hb
  exact h

theorem Decode.gives_refuse {p : α → Prop} : (refuse : Decode α).Gives p := fun _ _ _ h => by cases h

theorem Decode.gives_refuse_bind {f : α → Decode β} {q : β → Prop} : (refuse >>= f).Gives q := fun _ _ _ h => by cases h

theorem Decode.gives_true (x : Decode α) : x.Gives fun _ => True := fun _ _ _ _ => trivial

end Decode

mutual

/-- **What a tree says is in range**, since its scalars are. -/
theorem datum_gives : (tree : Tree) → (place : Place) → (isTop referred : Bool) →
    (datum place isTop referred tree).Gives Datum.InRange
  | .scalar tag text plain, place, isTop, referred => by
    rw [datum]
    refine (Decode.gives_true _).bind fun _ _ => ?_
    split
    · rename_i d hd
      obtain ⟨v, hv, hd⟩ := Option.bind_eq_some_iff.mp hd
      exact Decode.gives_pure ((inRange_scalarValue? hv).toDatum? hd)
    · exact Decode.gives_refuse
  | .sequence items, place, isTop, referred => by
    rw [datum]
    refine (Decode.gives_true _).bind fun _ _ => ?_
    exact (items?_gives items _ _).bind fun ds hds => Decode.gives_pure (Datum.inRange_list.mpr hds)
  | .mapping entries, place, isTop, referred => by
    rw [datum]
    refine (Decode.gives_true _).bind fun _ _ => ?_
    dsimp only
    split
    · exact Decode.gives_refuse_bind
    split
    · exact Decode.gives_refuse_bind
    · have hnil : Fields.InRange [] := fun f hf => absurd hf List.not_mem_nil
      refine (ownEntries_gives entries _ _ _ _ _ hnil).bind fun r hr => ?_
      exact (mergedEntries_gives entries _ _ _ _ _ _ hr).bind fun r hr => Decode.gives_pure hr.table
  | .reference name tree, place, isTop, referred => by
    rw [datum]
    exact (Decode.gives_true _).bind fun _ _ => datum_gives tree place isTop true
  | .loop name, place, isTop, referred => by
    rw [datum]
    exact Decode.gives_refuse

theorem items?_gives : (items : List Tree) → (place : Place) → (referred : Bool) →
    (items? place referred items).Gives fun ds => ∀ d ∈ ds, d.InRange
  | [], place, referred => by
    rw [items?]
    exact Decode.gives_pure (by simp)
  | tree :: rest, place, referred => by
    rw [items?]
    refine (datum_gives tree place false referred).bind fun d hd => ?_
    exact (items?_gives rest place referred).bind fun ds hds =>
      Decode.gives_pure (List.forall_mem_cons.mpr ⟨hd, hds⟩)

theorem ownEntries_gives : (entries : List (Tree × Tree)) → (place : Place) → (amongTexts referred : Bool) →
    (fields : Fields) → (taken : Option (List Value)) → fields.InRange →
    (ownEntries place amongTexts referred fields taken entries).Gives fun r => r.1.InRange
  | [], place, amongTexts, referred, fields, taken, hfields => by
    rw [ownEntries]
    exact Decode.gives_pure hfields
  | (k, v) :: rest, place, amongTexts, referred, fields, taken, hfields => by
    have hrest := fun fields taken => ownEntries_gives rest place amongTexts referred fields taken
    rw [ownEntries]
    split_ifs
    · exact hrest _ _ hfields
    refine (Decode.gives_true _).bind fun key _ => ?_
    split
    · exact hrest _ _ hfields
    split_ifs
    · exact hrest _ _ hfields
    · exact (datum_gives v place false referred).bind fun d hd => hrest _ _ (hfields.put _ hd)

theorem mergedEntries_gives : (entries : List (Tree × Tree)) → (place : Place) → (amongTexts referred : Bool) →
    (fields : Fields) → (taken : Option (List Value)) → (all : List (Tree × Tree)) → fields.InRange →
    (mergedEntries place amongTexts referred fields taken all entries).Gives fun r => r.1.InRange
  | [], place, amongTexts, referred, fields, taken, all, hfields => by
    rw [mergedEntries]
    exact Decode.gives_pure hfields
  | (k, v) :: rest, place, amongTexts, referred, fields, taken, all, hfields => by
    rw [mergedEntries]
    split_ifs
    · dsimp only
      split
      · refine (Decode.gives_true _).bind fun ks _ => ?_
        exact (mergedFrom_gives v place amongTexts referred fields ks true hfields).bind fun r hr =>
          Decode.gives_pure hr
      · refine (Decode.gives_true _).bind fun ks _ => ?_
        exact (mergedFrom_gives v place amongTexts referred fields ks true hfields).bind fun r hr =>
          Decode.gives_pure hr
    · exact mergedEntries_gives rest place amongTexts referred fields taken all hfields

theorem mergedFrom_gives : (tree : Tree) → (place : Place) → (amongTexts referred : Bool) → (fields : Fields) →
    (taken : List Value) → (mayBeSequence : Bool) → fields.InRange →
    (mergedFrom place amongTexts referred fields taken mayBeSequence tree).Gives fun r => r.1.InRange
  | .scalar tag text plain, place, amongTexts, referred, fields, taken, mayBeSequence, hfields => by
    rw [mergedFrom]
    · exact Decode.gives_refuse
    all_goals simp
  | .loop name, place, amongTexts, referred, fields, taken, mayBeSequence, hfields => by
    rw [mergedFrom]
    · exact Decode.gives_refuse
    all_goals simp
  | .reference name tree, place, amongTexts, referred, fields, taken, mayBeSequence, hfields => by
    rw [mergedFrom]
    exact (Decode.gives_true _).bind fun _ _ => mergedFrom_gives tree place amongTexts true fields taken false hfields
  | .sequence items, place, amongTexts, referred, fields, taken, mayBeSequence, hfields => by
    rw [mergedFrom]
    split_ifs
    · exact mergedItems_gives items place amongTexts referred fields taken hfields
    · exact Decode.gives_refuse
  | .mapping entries, place, amongTexts, referred, fields, taken, mayBeSequence, hfields => by
    rw [mergedFrom]
    refine (Decode.gives_true _).bind fun _ _ => ?_
    dsimp only
    split_ifs
    · exact Decode.gives_refuse_bind
    · refine (ownEntries_gives entries place amongTexts referred fields _ hfields).bind fun r hr => ?_
      exact (mergedEntries_gives entries place amongTexts referred r.1 r.2 entries hr).bind fun r hr =>
        Decode.gives_pure hr

theorem mergedItems_gives : (items : List Tree) → (place : Place) → (amongTexts referred : Bool) →
    (fields : Fields) → (taken : List Value) → fields.InRange →
    (mergedItems place amongTexts referred fields taken items).Gives fun r => r.1.InRange
  | [], place, amongTexts, referred, fields, taken, hfields => by
    rw [mergedItems]
    exact Decode.gives_pure hfields
  | tree :: rest, place, amongTexts, referred, fields, taken, hfields => by
    rw [mergedItems]
    refine (mergedFrom_gives tree place amongTexts referred fields taken false hfields).bind fun r hr => ?_
    exact mergedItems_gives rest place amongTexts referred r.1 r.2 hr

end

/-- **What a YAML text says is in range.** -/
theorem inRange_read? {t : Bytes} {d : Datum} (h : read? t = some d) : d.InRange := by
  unfold read? at h
  obtain ⟨tree?, -, h⟩ := Option.bind_eq_some_iff.mp h
  split at h
  · cases h
    exact Datum.inRange_table.mpr (by simp)
  · rename_i tree
    obtain ⟨⟨x, tally⟩, hx, h⟩ := Option.bind_eq_some_iff.mp h
    have hrange : x.InRange := datum_gives tree .field true false _ x tally hx
    cases x with
    | table fields =>
      cases h
      exact hrange
    | null =>
      cases h
      exact Datum.inRange_table.mpr (by simp)
    | _ => cases h

end ScriptSplit.Yaml
