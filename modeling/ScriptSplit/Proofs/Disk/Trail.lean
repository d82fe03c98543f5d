import Mathlib
import ScriptSplit.Proofs.Disk.Growth

/-!
# Trails

A trail is a walk through all links that says how many links may still be followed at its end. So a walk
can be cut in two where its steps are: first along a trail, then along the rest. A trail stays where it is
when a tree grows, and below a place without links a walk goes where the names say.

* `Trail`: the walk along some steps.
* **`walk_append_of_trail`**, **`exists_trail`**: a walk along a trail and on.
* `Trail.grows`: a trail in a tree that grew.
* `walk_names`, `walk_to`: walks below a place without links.
-/

namespace ScriptSplit.Disk

/-- The segment names something below a directory. -/
def Proper (segment : String) : Prop := segment ≠ "" ∧ segment ≠ "." ∧ segment ≠ ".."

/-- The walk from `here` along `todo`, with `links` to follow, ends at `place` with `left` of them. -/
inductive Trail (root : Node) : Nat → List String → List String → Nat → List String → Prop where
  | done (links : Nat) (here : List String) : Trail root links here [] links here
  | stay {links left : Nat} {here rest place : List String} {segment : String} {entries : List (String × Node)}
      (hdir : root.at? here = some (.dir entries)) (hsegment : segment = "" ∨ segment = ".")
      (h : Trail root links here rest left place) : Trail root links here (segment :: rest) left place
  | up {links left : Nat} {here rest place : List String} {entries : List (String × Node)}
      (hdir : root.at? here = some (.dir entries))
      (h : Trail root links here.dropLast rest left place) : Trail root links here (".." :: rest) left place
  | link {links left : Nat} {here rest place : List String} {segment target : String}
      (hsegment : Proper segment) (hlink : root.at? (here ++ [segment]) = some (.link target))
      (h : Trail root links (if Path.isAbs target then [] else here) (Path.parts target ++ rest) left place) :
      Trail root (links + 1) here (segment :: rest) left place
  | down {links left : Nat} {here rest place : List String} {segment : String}
      (hsegment : Proper segment) (hsolid : Solid root (here ++ [segment]))
      (h : Trail root links (here ++ [segment]) rest left place) :
      Trail root links here (segment :: rest) left place

/-! ## Steps of a walk -/

section Step

variable {root : Node} {last : LastStep} {links : Nat} {here rest : List String} {segment : String}

theorem walk_stay {entries : List (String × Node)} (hdir : root.at? here = some (.dir entries))
    (hsegment : segment = "" ∨ segment = ".") :
    walk root last links here (segment :: rest) = walk root last links here rest := by
  rw [walk]
  simp only [hdir]
  rw [if_pos (by simpa using hsegment)]

theorem walk_up {entries : List (String × Node)} (hdir : root.at? here = some (.dir entries)) :
    walk root last links here (".." :: rest) = walk root last links here.dropLast rest := by
  rw [walk]
  simp only [hdir]
  rfl

theorem walk_missing {entries : List (String × Node)} (hsegment : Proper segment)
    (hdir : root.at? here = some (.dir entries)) (hchild : root.at? (here ++ [segment]) = none) :
    walk root last links here (segment :: rest) =
      if last = .create && rest.isEmpty then .ok (here ++ [segment]) else .error .noEntry := by
  rw [Node.at?_concat hdir] at hchild
  rw [walk]
  simp only [hdir, hchild]
  rw [if_neg (by simp [hsegment.1, hsegment.2.1]), if_neg hsegment.2.2]

theorem walk_down {n : Node} (hsegment : Proper segment) (hchild : root.at? (here ++ [segment]) = some n)
    (hn : ∀ target, n ≠ .link target) :
    walk root last links here (segment :: rest) = walk root last links (here ++ [segment]) rest := by
  obtain ⟨entries, hdir⟩ := Node.exists_dir_of_append (List.cons_ne_nil segment []) hchild
  rw [Node.at?_concat hdir] at hchild
  rw [walk]
  simp only [hdir, hchild]
  rw [if_neg (by simp [hsegment.1, hsegment.2.1]), if_neg hsegment.2.2]

/-- A link that is not the last step is not kept. -/
theorem not_kept (hlast : last = .follow ∨ rest ≠ []) : ¬ (last = .keep && rest.isEmpty) = true := by
  rcases hlast with rfl | hrest
  · simp
  · simp [hrest]

section Link

variable {target : String} (hsegment : Proper segment)
  (hlink : root.at? (here ++ [segment]) = some (.link target))
include hsegment hlink

theorem walk_link (hlast : last = .follow ∨ rest ≠ []) : walk root last (links + 1) here (segment :: rest) =
    walk root last links (if Path.isAbs target then [] else here) (Path.parts target ++ rest) := by
  obtain ⟨entries, hdir⟩ := Node.exists_dir_of_append (List.cons_ne_nil segment []) hlink
  rw [Node.at?_concat hdir] at hlink
  rw [walk]
  simp only [hdir, hlink]
  rw [if_neg (by simp [hsegment.1, hsegment.2.1]), if_neg hsegment.2.2, if_neg (not_kept hlast)]

theorem walk_link_zero (hlast : last = .follow ∨ rest ≠ []) :
    walk root last 0 here (segment :: rest) = .error .tooManyLinks := by
  obtain ⟨entries, hdir⟩ := Node.exists_dir_of_append (List.cons_ne_nil segment []) hlink
  rw [Node.at?_concat hdir] at hlink
  rw [walk]
  simp only [hdir, hlink]
  rw [if_neg (by simp [hsegment.1, hsegment.2.1]), if_neg hsegment.2.2, if_neg (not_kept hlast)]

theorem walk_kept_link : walk root .keep links here [segment] = .ok (here ++ [segment]) := by
  obtain ⟨entries, hdir⟩ := Node.exists_dir_of_append (List.cons_ne_nil segment []) hlink
  rw [Node.at?_concat hdir] at hlink
  rw [walk]
  simp only [hdir, hlink]
  rw [if_neg (by simp [hsegment.1, hsegment.2.1]), if_neg hsegment.2.2, if_pos (by decide)]

end Link

/-- A link that is kept, or anything else, is at the place of its name. -/
theorem walk_keep {n : Node} (hsegment : Proper segment) (hchild : root.at? (here ++ [segment]) = some n) :
    walk root .keep links here [segment] = .ok (here ++ [segment]) := by
  by_cases hlink : ∃ target, n = .link target
  · obtain ⟨target, rfl⟩ := hlink
    exact walk_kept_link hsegment hchild
  · rw [walk_down hsegment hchild fun target heq => hlink ⟨target, heq⟩, walk]

/-- **What a step can do** that is not the last one of a path. -/
theorem walk_cons_cases {place : List String} (hlast : last = .follow ∨ rest ≠ [])
    (h : walk root last links here (segment :: rest) = .ok place) :
    (∃ entries, root.at? here = some (.dir entries) ∧ (segment = "" ∨ segment = ".") ∧
      walk root last links here rest = .ok place) ∨
    (∃ entries, root.at? here = some (.dir entries) ∧ segment = ".." ∧
      walk root last links here.dropLast rest = .ok place) ∨
    (∃ target links', Proper segment ∧ root.at? (here ++ [segment]) = some (.link target) ∧ links = links' + 1 ∧
      walk root last links' (if Path.isAbs target then [] else here) (Path.parts target ++ rest) = .ok place) ∨
    (Proper segment ∧ Solid root (here ++ [segment]) ∧
      walk root last links (here ++ [segment]) rest = .ok place) := by
  obtain ⟨entries, hdir⟩ := exists_dir_of_walk (List.cons_ne_nil segment rest) h
  by_cases hstay : segment = "" ∨ segment = "."
  · rw [walk_stay hdir hstay] at h
    exact .inl ⟨entries, hdir, hstay, h⟩
  by_cases hup : segment = ".."
  · subst hup
    rw [walk_up hdir] at h
    exact .inr (.inl ⟨entries, hdir, rfl, h⟩)
  have hsegment : Proper segment := ⟨fun hs => hstay (.inl hs), fun hs => hstay (.inr hs), hup⟩
  cases hchild : root.at? (here ++ [segment]) with
  | none =>
    rw [walk_missing hsegment hdir hchild] at h
    split_ifs at h with hnew
    rcases hlast with rfl | hrest
    · simp at hnew
    · simp [hrest] at hnew
  | some n =>
    by_cases hlink : ∃ target, n = .link target
    · obtain ⟨target, rfl⟩ := hlink
      cases links with
      | zero =>
        rw [walk_link_zero hsegment hchild hlast] at h
        cases h
      | succ links' =>
        rw [walk_link hsegment hchild hlast] at h
        exact .inr (.inr (.inl ⟨target, links', hsegment, rfl, rfl, h⟩))
    · have hn : ∀ target, n ≠ .link target := fun target heq => hlink ⟨target, heq⟩
      rw [walk_down hsegment hchild hn] at h
      exact .inr (.inr (.inr ⟨hsegment, ⟨n, hchild, hn⟩, h⟩))

end Step

/-! ## Walks along trails -/

/-- **Along a trail and on.** -/
theorem walk_append_of_trail {root : Node} {last : LastStep} {links left : Nat} {here todo place : List String}
    (h : Trail root links here todo left place) {rest : List String} (hlast : last = .follow ∨ rest ≠ []) :
    walk root last links here (todo ++ rest) = walk root last left place rest := by
  induction h with
  | done links here => rfl
  | stay hdir hsegment h ih => rw [List.cons_append, walk_stay hdir hsegment, ih]
  | up hdir h ih => rw [List.cons_append, walk_up hdir, ih]
  | link hsegment hlink h ih =>
    rw [List.append_assoc] at ih
    rw [List.cons_append, walk_link hsegment hlink (hlast.imp_right fun hrest => by simp [hrest]), ih]
  | down hsegment hsolid h ih =>
    obtain ⟨n, hchild, hn⟩ := hsolid
    rw [List.cons_append, walk_down hsegment hchild hn, ih]

theorem walk_of_trail {root : Node} {links left : Nat} {here todo place : List String}
    (h : Trail root links here todo left place) : walk root .follow links here todo = .ok place := by
  have happend : walk root .follow links here (todo ++ []) = walk root .follow left place [] :=
    walk_append_of_trail h (.inl rfl)
  rwa [List.append_nil, walk] at happend

/-- **A walk goes along a trail** through all steps but the last ones. -/
theorem exists_trail {root : Node} {last : LastStep} {rest place : List String}
    (hlast : last = .follow ∨ rest ≠ []) : ∀ (links : Nat) (here first : List String),
    walk root last links here (first ++ rest) = .ok place →
      ∃ left middle, Trail root links here first left middle ∧ walk root last left middle rest = .ok place
  | links, here, [], h => ⟨links, here, .done links here, h⟩
  | links, here, segment :: first, h => by
    have hlast' : last = .follow ∨ first ++ rest ≠ [] := hlast.imp_right fun hrest => by simp [hrest]
    rcases walk_cons_cases hlast' h with ⟨entries, hdir, hstay, hwalk⟩ | ⟨entries, hdir, rfl, hwalk⟩ |
      ⟨target, links', hsegment, hlink, rfl, hwalk⟩ | ⟨hsegment, hsolid, hwalk⟩
    · obtain ⟨left, middle, htrail, hrest⟩ := exists_trail hlast links here first hwalk
      exact ⟨left, middle, .stay hdir hstay htrail, hrest⟩
    · obtain ⟨left, middle, htrail, hrest⟩ := exists_trail hlast links here.dropLast first hwalk
      exact ⟨left, middle, .up hdir htrail, hrest⟩
    · -- the steps of the link come in front, so it is the number of links that gets smaller
      rw [← List.append_assoc] at hwalk
      obtain ⟨left, middle, htrail, hrest⟩ := exists_trail hlast links' _ (Path.parts target ++ first) hwalk
      exact ⟨left, middle, .link hsegment hlink htrail, hrest⟩
    · obtain ⟨left, middle, htrail, hrest⟩ := exists_trail hlast links (here ++ [segment]) first hwalk
      exact ⟨left, middle, .down hsegment hsolid htrail, hrest⟩
termination_by links _ first => (links, first.length)

theorem Trail.append {root : Node} {links middle left : Nat} {here first rest place place' : List String}
    (h : Trail root links here first middle place) (h' : Trail root middle place rest left place') :
    Trail root links here (first ++ rest) left place' := by
  induction h with
  | done links here => exact h'
  | stay hdir hsegment h ih => exact .stay hdir hsegment (ih h')
  | up hdir h ih => exact .up hdir (ih h')
  | link hsegment hlink h ih =>
    have happend := ih h'
    rw [List.append_assoc] at happend
    exact .link hsegment hlink happend
  | down hsegment hsolid h ih => exact .down hsegment hsolid (ih h')

/-- A trail is there in a tree that grew. -/
theorem Trail.grows {written : Set (List String)} {old new : Node} (hgrows : Node.Grows written old new)
    {links left : Nat} {here todo place : List String} (h : Trail old links here todo left place) :
    Trail new links here todo left place := by
  induction h with
  | done links here => exact .done links here
  | stay hdir hsegment h ih =>
    obtain ⟨entries, hdir'⟩ := hgrows.dir hdir
    exact .stay hdir' hsegment ih
  | up hdir h ih =>
    obtain ⟨entries, hdir'⟩ := hgrows.dir hdir
    exact .up hdir' ih
  | link hsegment hlink h ih => exact .link hsegment (hgrows.link hlink) ih
  | down hsegment hsolid h ih => exact .down hsegment (hsolid.grows hgrows) ih

/-! ## Below a place without links -/

/-- There are no links below the place. -/
def LinklessAt (root : Node) (place : List String) : Prop :=
  ∀ below target, root.at? (place ++ below) ≠ some (.link target)

theorem LinklessAt.append {root : Node} {place : List String} (h : LinklessAt root place) (below : List String) :
    LinklessAt root (place ++ below) := by
  intro below' target
  rw [List.append_assoc]
  exact h (below ++ below') target

theorem LinklessAt.grows {written : Set (List String)} {old new : Node} {place : List String}
    (h : LinklessAt old place) (hgrows : Node.Grows written old new) : LinklessAt new place :=
  fun below target hlink => h below target (hgrows.links _ _ hlink)

section Names

variable {root : Node} {last : LastStep} {links : Nat} {here names : List String}

/-- A walk along names goes where they say. -/
theorem walk_names {place : List String} (hlinkless : LinklessAt root here) (hnames : ∀ s ∈ names, Proper s)
    (h : walk root last links here names = .ok place) : place = here ++ names := by
  induction names generalizing here with
  | nil =>
    rw [walk] at h
    simpa using (Except.ok.inj h).symm
  | cons name names ih =>
    have hname := hnames name List.mem_cons_self
    obtain ⟨entries, hdir⟩ := exists_dir_of_walk (List.cons_ne_nil name names) h
    cases hchild : root.at? (here ++ [name]) with
    | none =>
      rw [walk_missing hname hdir hchild] at h
      split_ifs at h with hnew
      have hnil : names = [] := by simpa using (Bool.and_eq_true_iff.mp hnew).2
      rw [hnil]
      exact (Except.ok.inj h).symm
    | some n =>
      have hn : ∀ target, n ≠ .link target := by
        rintro target rfl
        exact hlinkless [name] target hchild
      rw [walk_down hname hchild hn] at h
      have hplace := ih (hlinkless.append [name]) (fun s hs => hnames s (List.mem_cons_of_mem name hs)) h
      rw [hplace, List.append_assoc]
      rfl

/-- A walk along names leads to what is there. -/
theorem walk_to {n : Node} (hlinkless : LinklessAt root here) (hnames : ∀ s ∈ names, Proper s)
    (hn : root.at? (here ++ names) = some n) : walk root last links here names = .ok (here ++ names) := by
  induction names generalizing here with
  | nil =>
    rw [walk, List.append_nil]
  | cons name names ih =>
    have happend : here ++ name :: names = here ++ [name] ++ names := by simp
    rw [happend] at hn ⊢
    have hchild : ∃ m, root.at? (here ++ [name]) = some m := by
      rw [Node.at?_append] at hn
      obtain ⟨m, hm, -⟩ := Option.bind_eq_some_iff.mp hn
      exact ⟨m, hm⟩
    obtain ⟨m, hm⟩ := hchild
    have hlink : ∀ target, m ≠ .link target := by
      rintro target rfl
      exact hlinkless [name] target hm
    rw [walk_down (hnames name List.mem_cons_self) hm hlink]
    exact ih (hlinkless.append [name]) (fun s hs => hnames s (List.mem_cons_of_mem name hs)) hn

end Names

end ScriptSplit.Disk
