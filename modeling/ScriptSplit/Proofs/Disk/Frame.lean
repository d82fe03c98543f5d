import Mathlib
import ScriptSplit.Proofs.Disk.Below

/-!
# Directories and links that stay

Where a file is set or removed, all directories and links stay, so every trail to a directory does. Where
something is removed with all below it, a trail that is left was there before.

* `Node.Framed`: a tree has all directories and links of another; `framed_set`: one change of a file.
* `Trail.framed`, `Trail.of_adds`: trails in a tree that changed.
* `Disk.find_dir_iff`: a path leads to a directory along a trail.
* `EndsAt`: the last name of some steps; **`EndsAt.not_trail`**: once it is gone they lead nowhere.
-/

namespace ScriptSplit

/-! ## One change of a file -/

namespace Node

/-- The second tree has all directories, up to their entries, and all links of the first one. -/
structure Framed (old new : Node) : Prop where
  dirs : ∀ place entries, old.at? place = some (.dir entries) → ∃ entries', new.at? place = some (.dir entries')
  links : ∀ place target, old.at? place = some (.link target) → new.at? place = some (.link target)

/-- What is at the place, if anything, is a file. -/
def AtMostFile (root : Node) (place : List String) : Prop := ∀ n, root.at? place = some n → ∃ t, n = .file t

theorem atMostFile_of_none {root : Node} {place : List String} (h : root.at? place = none) : AtMostFile root place := by
  intro n hn
  rw [h] at hn
  cases hn

theorem atMostFile_of_file {root : Node} {place : List String} {t : Bytes} (h : root.at? place = some (.file t)) :
    AtMostFile root place := by
  intro n hn
  rw [h] at hn
  exact ⟨t, (Option.some.inj hn).symm⟩

/-- **Where no directory and no link stands**, a change keeps all of them. -/
theorem framed_set {root : Node} {above : List String} {name : String} (hfile : AtMostFile root (above ++ [name]))
    (new : Option Node) : Framed root (root.set (above ++ [name]) new) := by
  have hother : ∀ place n, root.at? place = some n → (∀ t, n ≠ .file t) → ¬ above ++ [name] <+: place := by
    rintro place n hn hnot ⟨below, rfl⟩
    by_cases hbelow : below = []
    · subst hbelow
      rw [List.append_nil] at hn
      obtain ⟨t, rfl⟩ := hfile n hn
      exact hnot t rfl
    · obtain ⟨entries, hdir⟩ := exists_dir_of_append hbelow hn
      obtain ⟨t, ht⟩ := hfile _ hdir
      cases ht
  refine ⟨fun place entries hdir => ?_, fun place target hlink => ?_⟩
  · have hrel : Option.Rel Like _ (root.at? place) := rel_like_set (hother place _ hdir fun t ht => by cases ht) new
    rw [hdir] at hrel
    generalize (root.set (above ++ [name]) new).at? place = o at hrel ⊢
    cases hrel with
    | some hlike =>
      obtain rfl | ⟨hnew, -⟩ := hlike
      · exact ⟨entries, rfl⟩
      · rename_i n
        cases n with
        | dir entries' => exact ⟨entries', rfl⟩
        | file t => cases hnew
        | link target => cases hnew
  · have hrel : Option.Rel Like _ (root.at? place) := rel_like_set (hother place _ hlink fun t ht => by cases ht) new
    rw [hlink] at hrel
    generalize (root.set (above ++ [name]) new).at? place = o at hrel ⊢
    cases hrel with
    | some hlike =>
      obtain rfl | ⟨-, hold⟩ := hlike
      · rfl
      · cases hold

theorem at?_set_last {root : Node} {above : List String} {entries : List (String × Node)}
    (hdir : root.at? above = some (.dir entries)) (name : String) (new : Option Node) :
    (root.set (above ++ [name]) new).at? (above ++ [name]) = new := by
  cases new with
  | none => exact at?_set_none hdir name
  | some n => exact at?_set_self hdir name n

/-- A file under another name in the same directory stays. -/
theorem at?_set_sibling {root : Node} {above : List String} {name other : String} (hother : other ≠ name)
    (hfile : AtMostFile root (above ++ [other])) (new : Option Node) :
    (root.set (above ++ [name]) new).at? (above ++ [other]) = root.at? (above ++ [other]) := by
  have hprefix : ¬ above ++ [name] <+: above ++ [other] := by
    rintro ⟨below, hbelow⟩
    rw [List.append_assoc, List.append_cancel_left_eq, List.singleton_append, List.cons.injEq] at hbelow
    exact hother hbelow.1.symm
  have hrel : Option.Rel Like _ (root.at? (above ++ [other])) := rel_like_set hprefix new
  cases hold : root.at? (above ++ [other]) with
  | none =>
    rw [hold] at hrel
    generalize (root.set (above ++ [name]) new).at? (above ++ [other]) = o at hrel ⊢
    cases hrel
    rfl
  | some n =>
    obtain ⟨t, rfl⟩ := hfile n hold
    rw [hold] at hrel
    generalize (root.set (above ++ [name]) new).at? (above ++ [other]) = o at hrel ⊢
    cases hrel with
    | some hlike => rw [hlike.file_right rfl]

end Node

namespace Disk

/-! ## Trails to directories -/

section Trails

variable {old new : Node} {links left : Nat} {here todo place : List String}

/-- A trail to a directory starts in one. -/
theorem Trail.exists_dir {root : Node} (h : Trail root links here todo left place) {entries : List (String × Node)}
    (hplace : root.at? place = some (.dir entries)) : ∃ entries', root.at? here = some (.dir entries') := by
  cases h with
  | done => exact ⟨entries, hplace⟩
  | stay hdir => exact ⟨_, hdir⟩
  | up hdir => exact ⟨_, hdir⟩
  | link _ hlink => exact Node.exists_dir_of_append (List.cons_ne_nil _ _) hlink
  | down _ hsolid =>
    obtain ⟨n, hn, -⟩ := hsolid
    exact Node.exists_dir_of_append (List.cons_ne_nil _ _) hn

/-- **A trail to a directory stays** where directories and links do. -/
theorem Trail.framed (hframed : Node.Framed old new) (h : Trail old links here todo left place)
    {entries : List (String × Node)} (hplace : old.at? place = some (.dir entries)) :
    Trail new links here todo left place := by
  induction h with
  | done links here => exact .done links here
  | stay hdir hsegment h ih =>
    obtain ⟨entries', hdir'⟩ := hframed.dirs _ _ hdir
    exact .stay hdir' hsegment (ih hplace)
  | up hdir h ih =>
    obtain ⟨entries', hdir'⟩ := hframed.dirs _ _ hdir
    exact .up hdir' (ih hplace)
  | link hsegment hlink h ih => exact .link hsegment (hframed.links _ _ hlink) (ih hplace)
  | down hsegment hsolid h ih =>
    -- the rest leads to a directory, so it starts in one
    obtain ⟨entries', hdir⟩ := h.exists_dir hplace
    obtain ⟨entries'', hdir'⟩ := hframed.dirs _ _ hdir
    exact .down hsegment (solid_of_dir hdir') (ih hplace)

/-- A trail in a tree to which nothing was added was there before. -/
theorem Trail.of_adds (hadds : Node.Adds none old new) (h : Trail new links here todo left place) :
    Trail old links here todo left place := by
  induction h with
  | done links here => exact .done links here
  | stay hdir hsegment h ih =>
    obtain ⟨entries', hdir'⟩ := hadds.dirs hdir
    exact .stay hdir' hsegment ih
  | up hdir h ih =>
    obtain ⟨entries', hdir'⟩ := hadds.dirs hdir
    exact .up hdir' ih
  | link hsegment hlink h ih => exact .link hsegment (hadds.link hlink) ih
  | down hsegment hsolid h ih =>
    obtain ⟨n, hn, hlink⟩ := hsolid
    obtain ⟨t, ht, -⟩ | ⟨m, hm, hlike⟩ := hadds _ n hn
    · cases ht
    · refine .down hsegment ⟨m, hm, ?_⟩ ih
      rintro target rfl
      obtain rfl | ⟨-, hdir⟩ := hlike
      · exact hlink target rfl
      · cases hdir

/-- There is one place at the end of some steps. -/
theorem Trail.eq {left' : Nat} {place' : List String} (h : Trail old links here todo left place)
    (h' : Trail old links here todo left' place') : place = place' := by
  have hwalk := walk_of_trail h
  rw [walk_of_trail h'] at hwalk
  exact (Except.ok.inj hwalk).symm

end Trails

section Find

variable {d : Disk} {path : String}

/-- **A path leads to a directory** along a trail. -/
theorem find_dir_iff (hpath : path ≠ "") : (∃ entries, d.find .follow path = .ok (.dir entries)) ↔
    ∃ left place entries, Trail d.root maxLinks [] (d.steps path) left place ∧
      d.root.at? place = some (.dir entries) := by
  constructor
  · rintro ⟨entries, hfind⟩
    obtain ⟨place, hplace, hdir⟩ := find_eq_ok_iff.mp hfind
    rw [place_eq_walk hpath, ← List.append_nil (d.steps path)] at hplace
    obtain ⟨left, middle, htrail, hrest⟩ := exists_trail (.inl rfl) _ _ _ hplace
    rw [walk] at hrest
    cases hrest
    exact ⟨left, _, entries, htrail, hdir⟩
  · rintro ⟨left, place, entries, htrail, hdir⟩
    exact ⟨entries, find_eq_ok_iff.mpr ⟨place, by rw [place_eq_walk hpath, walk_of_trail htrail], hdir⟩⟩

theorem find_dir_framed {new : Node} (hframed : Node.Framed d.root new)
    (h : ∃ entries, d.find .follow path = .ok (.dir entries)) :
    ∃ entries, ({ d with root := new } : Disk).find .follow path = .ok (.dir entries) := by
  have hpath : path ≠ "" := by
    rintro rfl
    obtain ⟨entries, hfind⟩ := h
    cases hfind
  obtain ⟨left, place, entries, htrail, hdir⟩ := (find_dir_iff hpath).mp h
  obtain ⟨entries', hdir'⟩ := hframed.dirs _ _ hdir
  exact (find_dir_iff hpath).mpr ⟨left, place, entries', htrail.framed hframed hdir, hdir'⟩

end Find

/-! ## The last name of some steps -/

/-- The last of the steps is a name in the directory `upper`. -/
structure EndsAt (root : Node) (steps upper : List String) (name : String) : Prop where
  proper : Proper name
  exists_above : ∃ above left, steps = above ++ [name] ∧ Trail root maxLinks [] above left upper

/-- A name that is not new names something. -/
theorem exists_node_of_walk {root : Node} {last : LastStep} {links : Nat} {here rest place : List String}
    {name : String} (hname : Proper name) (hlast : last ≠ .create)
    (h : walk root last links here (name :: rest) = .ok place) : ∃ n, root.at? (here ++ [name]) = some n := by
  obtain ⟨entries, hdir⟩ := exists_dir_of_walk (List.cons_ne_nil name rest) h
  cases hchild : root.at? (here ++ [name]) with
  | none =>
    rw [walk_missing hname hdir hchild] at h
    simp [hlast] at h
  | some n => exact ⟨n, rfl⟩

namespace EndsAt

variable {root : Node} {steps upper : List String} {name : String} (h : EndsAt root steps upper name)
include h

theorem exists_node {left : Nat} {place : List String} (htrail : Trail root maxLinks [] steps left place) :
    ∃ n, root.at? (upper ++ [name]) = some n := by
  obtain ⟨above, left', rfl, habove⟩ := h.exists_above
  have hwalk := walk_of_trail htrail
  rw [walk_append_of_trail habove (.inl rfl)] at hwalk
  exact exists_node_of_walk h.proper (by decide) hwalk

theorem walk_keep {n : Node} (hn : root.at? (upper ++ [name]) = some n) :
    walk root .keep maxLinks [] steps = .ok (upper ++ [name]) := by
  obtain ⟨above, left, rfl, habove⟩ := h.exists_above
  rw [walk_append_of_trail habove (.inr (List.cons_ne_nil _ _)), Disk.walk_keep h.proper hn]

/-- **Once the name is gone** the steps lead nowhere. -/
theorem not_trail {new : Node} (hadds : Node.Adds none root new) (hnone : new.at? (upper ++ [name]) = none)
    (left : Nat) (place : List String) : ¬ Trail new maxLinks [] steps left place := by
  intro htrail
  obtain ⟨above, left', rfl, habove⟩ := h.exists_above
  have hwalk := walk_of_trail htrail
  obtain ⟨left'', upper', habove', hrest⟩ := exists_trail (.inl rfl) _ _ _ hwalk
  obtain rfl := (habove'.of_adds hadds).eq habove
  obtain ⟨n, hn⟩ := exists_node_of_walk h.proper (by decide) hrest
  rw [hnone] at hn
  cases hn

theorem framed {new : Node} (hframed : Node.Framed root new) {entries : List (String × Node)}
    (hdir : root.at? upper = some (.dir entries)) : EndsAt new steps upper name := by
  obtain ⟨above, left, rfl, habove⟩ := h.exists_above
  exact ⟨h.proper, above, left, rfl, habove.framed hframed hdir⟩

end EndsAt

theorem EndsAt.ne_empty {root : Node} {d : Disk} {path name : String} {upper : List String}
    (h : EndsAt root (d.steps path) upper name) : path ≠ "" := by
  rintro rfl
  obtain ⟨above, left, hsteps, -⟩ := h.exists_above
  have hempty : d.steps "" = Path.parts d.cwd ++ [""] := Path.parts_append_slash d.cwd ""
  rw [hempty] at hsteps
  exact h.proper.1 (List.cons.inj (List.append_inj_right' hsteps rfl)).1.symm

/-- **The place of what is kept** at the end of a path that ends in a name. -/
theorem exists_endsAt {d : Disk} {path name : String} {above place : List String}
    (hsteps : d.steps path = above ++ [name]) (hname : Proper name) (h : d.place .keep path = .ok place) :
    ∃ upper, place = upper ++ [name] ∧ EndsAt d.root (d.steps path) upper name := by
  rw [place_eq_walk (ne_empty_of_place h), hsteps] at h
  obtain ⟨left, upper, htrail, hrest⟩ := exists_trail (.inr (List.cons_ne_nil _ _)) _ _ _ h
  obtain ⟨n, hn⟩ := exists_node_of_walk hname (by decide) hrest
  rw [walk_keep hname hn] at hrest
  exact ⟨upper, (Except.ok.inj hrest).symm, hname, above, left, hsteps, htrail⟩

end Disk

end ScriptSplit
