import Mathlib
import ScriptSplit.Proofs.Text.Replace
import ScriptSplit.Proofs.Text.Sorted
import ScriptSplit.Server.Prompt

/-!
# The order of arguments

Arguments are filled in one after the other, each into the text that the ones before it have left. What a
value brings in, alone or with the text around it, may be a placeholder that a later argument fills again, so
the order of arguments matters. It does not for a text that is read once: its placeholders are found before
anything is filled in.

* `fillArguments`: all arguments at once, into the placeholders that the text has.
* `Delimited`: names whose placeholders cannot share characters; `not_opens_of_suffix`, `eq_of_begins`.
* `prefix_filled`: a placeholder that stands in a half-filled text stands in the filled one too.
* `replaceChars_filled`: one argument; `expandArguments_filled`: a run over the arguments that are left.
* **`expandArguments_order`**: every order fills in the same, unless the filled text has a placeholder again.
* `expandArguments_order_matters`: texts whose filled text has one.
-/

namespace ScriptSplit

/-! ## Texts with places for arguments -/

/-- A part of a text: a character, or the place of an argument. -/
inductive Piece where
  | letter (c : Char)
  | hole (name : String)
  deriving DecidableEq

/-- The characters of a part. The place of an argument that is not given is its placeholder. -/
def Piece.filled (args : List (String × String)) : Piece → List Char
  | letter c => [c]
  | hole name => ((args.lookup name).getD (placeholder name)).toList

/-- The characters of a text in parts. -/
def filled (args : List (String × String)) (pieces : List Piece) : List Char := pieces.flatMap (Piece.filled args)

/-- Reads a text from the left. The first `skip` characters belong to a placeholder that was read already. -/
def readPieces (names : List String) : (skip : Nat) → List Char → List Piece
  | _, [] => []
  | skip + 1, _ :: r => readPieces names skip r
  | 0, c :: r =>
    match names.find? fun name => (placeholder name).toList.isPrefixOf (c :: r) with
    | some name => .hole name :: readPieces names ((placeholder name).toList.length - 1) r
    | none => .letter c :: readPieces names 0 r

/-- Fills all arguments into the placeholders that the text has. -/
def fillArguments (body : String) (args : List (String × String)) : String :=
  String.ofList (filled args (readPieces (args.map Prod.fst) 0 body.toList))

@[simp] theorem filled_cons (args : List (String × String)) (piece : Piece) (pieces : List Piece) :
    filled args (piece :: pieces) = piece.filled args ++ filled args pieces := rfl

theorem toList_placeholder (name : String) :
    (placeholder name).toList = '{' :: '{' :: (name.toList ++ ['}', '}']) := by
  simp [placeholder]

/-- A text that is read and not filled is the same. -/
theorem filled_readPieces (names : List String) (skip : Nat) (l : List Char) :
    filled [] (readPieces names skip l) = l.drop skip := by
  fun_induction readPieces names skip l with
  | case1 => simp [filled]
  | case2 skip c r ih => exact ih
  | case3 c r name hfind ih =>
    have hfound := List.find?_some hfind
    obtain ⟨rest, hrest⟩ := List.isPrefixOf_iff_prefix.mp hfound
    rw [filled_cons, ih, List.drop_zero, ← hrest]
    have hr : r = '{' :: (name.toList ++ ['}', '}']) ++ rest := by
      rw [toList_placeholder] at hrest
      exact (List.cons.inj hrest).2.symm
    have hlength : (placeholder name).toList.length - 1 = ('{' :: (name.toList ++ ['}', '}'])).length := by
      rw [toList_placeholder]
      rfl
    rw [hlength, hr, List.drop_left]
    rfl
  | case4 c r hfind ih => rw [filled_cons, ih]; rfl

/-- Places are those of the names that are looked for. -/
theorem mem_of_hole_mem {names : List String} {skip : Nat} {l : List Char} {name : String}
    (h : Piece.hole name ∈ readPieces names skip l) : name ∈ names := by
  fun_induction readPieces names skip l with
  | case1 => cases h
  | case2 skip c r ih => exact ih h
  | case3 c r found hfind ih =>
    obtain heq | h := List.mem_cons.mp h
    · cases heq
      exact List.mem_of_find?_eq_some hfind
    · exact ih h
  | case4 c r hfind ih =>
    obtain heq | h := List.mem_cons.mp h
    · cases heq
    · exact ih h

/-! ## Placeholders side by side -/

/-- The braces of a placeholder are told from those of the name: none of its opening or closing pairs of braces
uses a character of the name. -/
def Delimited (name : String) : Prop :=
  ¬ ['{', '{'] <:+: '{' :: name.toList ∧ ¬ ['}', '}'] <:+: name.toList ++ ['}']

instance (name : String) : Decidable (Delimited name) := inferInstanceAs (Decidable (_ ∧ _))

/-- A later part of a placeholder does not open one. -/
theorem not_opens_of_suffix {name : String} (h : Delimited name) {w u x : List Char} (hw : w ≠ []) (hu : u ≠ [])
    (hsplit : (placeholder name).toList = w ++ u) : ¬ ['{', '{'] <+: u ++ x := by
  rintro ⟨r, hr⟩
  obtain ⟨c, w, rfl⟩ := List.exists_cons_of_ne_nil hw
  rw [toList_placeholder, List.cons_append, List.cons.injEq] at hsplit
  obtain ⟨rfl, hsplit⟩ := hsplit
  -- the two opening braces lie in the part, since a placeholder ends in others
  obtain ⟨t, rfl⟩ : ∃ t, u = '{' :: '{' :: t := by
    match u, hu with
    | [a], _ =>
      have hlast := congrArg List.reverse hsplit
      cases hr
      simp at hlast
    | a :: b :: t, _ =>
      cases hr
      exact ⟨t, rfl⟩
  obtain ⟨b, hb, ht⟩ | ⟨b, hb, ht⟩ := List.append_eq_append_iff.mp
    (show ('{' :: name.toList) ++ ['}', '}'] = w ++ '{' :: '{' :: t from hsplit)
  · have hbrace : '{' ∈ ['}', '}'] := by
      rw [ht]
      simp
    exact absurd hbrace (by decide)
  · match b, ht with
    | [], ht => cases ht
    | [y], ht => cases ht
    | y :: z :: b, ht =>
      cases ht
      exact h.1 ⟨w, b, by rw [hb]; simp⟩

theorem nil_of_closes {a c r x : List Char} (h : ¬ ['}', '}'] <:+: (a ++ c) ++ ['}'])
    (hclose : '}' :: '}' :: r = c ++ '}' :: '}' :: x) : c = [] := by
  match c, hclose with
  | [], _ => rfl
  | [y], hclose =>
    cases hclose
    exact absurd ⟨a, [], by simp⟩ h
  | y :: z :: c, hclose =>
    cases hclose
    exact absurd ⟨a, c ++ ['}'], by simp⟩ h

/-- No placeholder starts another one. -/
theorem eq_of_begins {name other : String} (hname : Delimited name) (hother : Delimited other) {x : List Char}
    (h : (placeholder name).toList <+: (placeholder other).toList ++ x) : name = other := by
  obtain ⟨r, hr⟩ := h
  simp only [toList_placeholder, List.cons_append, List.append_assoc, List.nil_append, List.cons.injEq, true_and] at hr
  refine String.toList_injective ?_
  obtain ⟨c, hc, hclose⟩ | ⟨c, hc, hclose⟩ := List.append_eq_append_iff.mp hr
  · have hnil := nil_of_closes (hc ▸ hother.2) hclose
    rw [hc, hnil, List.append_nil]
  · have hnil := nil_of_closes (hc ▸ hname.2) hclose
    rw [hc, hnil, List.append_nil]

/-! ## One argument after the other -/

section Filling

variable {pieces : List Piece} (hholes : ∀ name, Piece.hole name ∈ pieces → Delimited name)
include hholes

/-- **A placeholder that begins in front of a half-filled text** stays when more is filled in: it has no
character of a place that is still open. -/
theorem prefix_filled {name : String} (hname : Delimited name) {done all : List (String × String)}
    (hsub : ∀ other value, done.lookup other = some value → all.lookup other = some value)
    {w : List Char} (hw : w ≠ []) (h : (placeholder name).toList <+: w ++ filled done pieces) :
    (placeholder name).toList <+: w ++ filled all pieces := by
  induction pieces generalizing w with
  | nil => exact h
  | cons piece pieces ih =>
    have ih {w} := @ih (fun other hother => hholes other (List.mem_cons_of_mem _ hother)) w
    have hkeep : ∀ v, piece.filled done = v → piece.filled all = v →
        (placeholder name).toList <+: w ++ filled all (piece :: pieces) := by
      rintro v hdone hall
      rw [filled_cons, hdone, ← List.append_assoc] at h
      rw [filled_cons, hall, ← List.append_assoc]
      exact ih (by simp [hw]) h
    cases piece with
    | letter c => exact hkeep [c] rfl rfl
    | hole other =>
      cases hdone : done.lookup other with
      | some value => exact hkeep value.toList (by simp [Piece.filled, hdone]) (by simp [Piece.filled, hsub _ _ hdone])
      | none =>
        obtain hshort | ⟨u, hu⟩ := List.prefix_or_prefix_of_prefix h (List.prefix_append w _)
        · exact hshort.trans (List.prefix_append w _)
        by_cases hnil : u = []
        · rw [← hu, hnil, List.append_nil]
          exact List.prefix_append w _
        · exfalso
          rw [← hu, List.prefix_append_right_inj, filled_cons] at h
          obtain ⟨x, hx⟩ := h
          refine not_opens_of_suffix hname hw hnil hu.symm (x := x) ?_
          rw [hx, Piece.filled, hdone, Option.getD_none, toList_placeholder]
          exact ⟨_, rfl⟩

/-- **Filling in one argument** fills its places and no other part of the text. -/
theorem replaceChars_filled {name value : String} (hname : Delimited name) {done all : List (String × String)}
    (hsub : ∀ other value', done.lookup other = some value' → all.lookup other = some value')
    (hnone : ¬ (placeholder name).toList <:+: filled all pieces) :
    replaceChars (placeholder name).toList value.toList 0 (filled done pieces) =
      filled (done ++ [(name, value)]) pieces := by
  induction pieces with
  | nil => rfl
  | cons piece pieces ih =>
    have hrest : ∀ other, Piece.hole other ∈ pieces → Delimited other := fun other hother =>
      hholes other (List.mem_cons_of_mem _ hother)
    rw [filled_cons] at hnone
    have ih := ih hrest fun h => hnone (h.trans (List.suffix_append _ _).isInfix)
    -- nothing starts in characters that the filled text has too
    have hkeep : ∀ v, piece.filled done = v → piece.filled all = v →
        replaceChars (placeholder name).toList value.toList 0 (filled done (piece :: pieces)) =
          v ++ filled (done ++ [(name, value)]) pieces := by
      rintro v hdone hall
      rw [filled_cons, hdone, ← ih]
      refine replaceChars_block fun b hb hsuffix hstarts => hnone ?_
      obtain ⟨a, ha⟩ := hsuffix
      rw [hall, ← ha, List.append_assoc]
      exact (prefix_filled hrest hname hsub hb hstarts).isInfix.trans (List.suffix_append a _).isInfix
    cases piece with
    | letter c => exact hkeep [c] rfl rfl
    | hole other =>
      have hlookup : (done ++ [(name, value)]).lookup other =
          (done.lookup other).or (if other = name then some value else none) := by
        rw [List.lookup_append, Dict.lookup_cons_eq]
        rfl
      cases hdone : done.lookup other with
      | some value' =>
        rw [hkeep value'.toList (by simp [Piece.filled, hdone]) (by simp [Piece.filled, hsub _ _ hdone]),
          filled_cons, Piece.filled, hlookup, hdone]
        rfl
      | none =>
        rw [filled_cons, filled_cons, Piece.filled, Piece.filled, hlookup, hdone, Option.getD_none, Option.none_or, ← ih]
        by_cases heq : other = name
        · rw [if_pos heq, heq]
          exact replaceChars_match (by simp [toList_placeholder]) _
        · rw [if_neg heq]
          refine replaceChars_block fun b hb hsuffix hstarts => ?_
          obtain ⟨a, ha⟩ := hsuffix
          by_cases hnil : a = []
          · rw [hnil, List.nil_append] at ha
            rw [ha] at hstarts
            exact heq (eq_of_begins hname (hholes other List.mem_cons_self) hstarts).symm
          · refine not_opens_of_suffix (hholes other List.mem_cons_self) hnil hb ha.symm
              (List.IsPrefix.trans ?_ hstarts)
            rw [toList_placeholder]
            exact ⟨_, rfl⟩

/-- **Filling in the arguments that are left** fills all of their places. -/
theorem expandArguments_filled {done left : List (String × String)} (hnames : ∀ arg ∈ left, Delimited arg.1)
    (hnone : ∀ arg ∈ left, ¬ (placeholder arg.1).toList <:+: filled (done ++ left) pieces) :
    expandArguments (String.ofList (filled done pieces)) left = String.ofList (filled (done ++ left) pieces) := by
  induction left generalizing done with
  | nil =>
    rw [List.append_nil]
    rfl
  | cons arg left ih =>
    obtain ⟨name, value⟩ := arg
    have hsplit : done ++ (name, value) :: left = done ++ [(name, value)] ++ left := by simp
    have hsub : ∀ other value', done.lookup other = some value' →
        (done ++ (name, value) :: left).lookup other = some value' := by
      intro other value' hdone
      rw [List.lookup_append, hdone, Option.some_or]
    have hstep : expandArguments (String.ofList (filled done pieces)) ((name, value) :: left) =
        expandArguments (String.ofList (filled (done ++ [(name, value)]) pieces)) left := by
      rw [← replaceChars_filled hholes (hnames _ List.mem_cons_self) hsub (hnone _ List.mem_cons_self)]
      simp [expandArguments, replaceAll]
    rw [hstep, hsplit]
    rw [hsplit] at hnone
    exact ih (fun arg harg => hnames arg (List.mem_cons_of_mem _ harg))
      fun arg harg => hnone arg (List.mem_cons_of_mem _ harg)

end Filling

/-- The order of arguments does not change what is filled in at once. -/
theorem filled_of_perm {args args' : List (String × String)} (hnodup : (args.map Prod.fst).Nodup)
    (hperm : args'.Perm args) (pieces : List Piece) : filled args' pieces = filled args pieces := by
  have hlookup : ∀ name, args'.lookup name = args.lookup name := by
    intro name
    refine Option.ext fun value => ?_
    rw [Dict.lookup_eq_some_iff_mem hnodup,
      Dict.lookup_eq_some_iff_mem ((hperm.map Prod.fst).nodup_iff.mpr hnodup), hperm.mem_iff]
  refine List.flatMap_congr fun piece _ => ?_
  cases piece with
  | letter c => rfl
  | hole name => rw [Piece.filled, hlookup, Piece.filled]

/-- **The order of arguments does not matter** if the filled text has none of their placeholders: every order
fills them all in at once. -/
theorem expandArguments_order {body : String} {args : List (String × String)} (hnodup : (args.map Prod.fst).Nodup)
    (hnames : ∀ arg ∈ args, Delimited arg.1)
    (hnone : ∀ arg ∈ args, ¬ (placeholder arg.1).toList <:+: (fillArguments body args).toList) :
    ∀ args', args'.Perm args → expandArguments body args' = fillArguments body args := by
  intro args' hperm
  set pieces := readPieces (args.map Prod.fst) 0 body.toList with hpieces
  have hholes : ∀ name, Piece.hole name ∈ pieces → Delimited name := by
    intro name hname
    obtain ⟨arg, harg, rfl⟩ := List.mem_map.mp (mem_of_hole_mem hname)
    exact hnames arg harg
  have hbody : body = String.ofList (filled [] pieces) := by
    rw [hpieces, filled_readPieces, List.drop_zero, String.ofList_toList]
  have hfilled : filled args' pieces = filled args pieces := filled_of_perm hnodup hperm pieces
  have hleft : ∀ arg ∈ args', ¬ (placeholder arg.1).toList <:+: filled args' pieces := by
    intro arg harg
    have := hnone arg (hperm.mem_iff.mp harg)
    rwa [fillArguments, String.toList_ofList, ← hpieces, ← hfilled] at this
  calc expandArguments body args'
    _ = expandArguments (String.ofList (filled [] pieces)) args' := congrArg (expandArguments · args') hbody
    _ = String.ofList (filled args' pieces) :=
      expandArguments_filled hholes (fun arg harg => hnames arg (hperm.mem_iff.mp harg)) hleft
    _ = fillArguments body args := by rw [hfilled, fillArguments]

theorem expandArguments_order_review :
    let body := "Use \x7b\x7btool\x7d\x7d on \x7b\x7b\x7b\x7bpath\x7d\x7d."
    let args := [("path", "\x7b\x7btool"), ("tool", "analyze_file")]
    let filled := "Use analyze_file on \x7b\x7b\x7b\x7btool."
    (args.map Prod.fst).Nodup ∧ (∀ arg ∈ args, Delimited arg.1) ∧
      (∀ arg ∈ args, ¬ (placeholder arg.1).toList <:+: (fillArguments body args).toList) ∧
      fillArguments body args = filled ∧ ∀ args', args'.Perm args → expandArguments body args' = filled := by
  intro body args filled
  have hnodup : (args.map Prod.fst).Nodup := by decide
  have hnames : ∀ arg ∈ args, Delimited arg.1 := by decide
  have hfill : fillArguments body args = filled := by decide +kernel
  have hnone : ∀ arg ∈ args, ¬ (placeholder arg.1).toList <:+: (fillArguments body args).toList := by
    decide +kernel
  exact ⟨hnodup, hnames, hnone, hfill, fun args' hperm =>
    (expandArguments_order hnodup hnames hnone args' hperm).trans hfill⟩

/-- **The order of arguments matters** where the filled text has a placeholder again: that of another argument in
a value, one that a value and the text around it spell, or one that is left over of another placeholder. -/
theorem expandArguments_order_matters :
    expandArguments "\x7b\x7ba\x7d\x7d" [("a", "\x7b\x7bb\x7d\x7d"), ("b", "x")] = "x" ∧
    expandArguments "\x7b\x7ba\x7d\x7d" [("b", "x"), ("a", "\x7b\x7bb\x7d\x7d")] = "\x7b\x7bb\x7d\x7d" ∧
    expandArguments "\x7b\x7b\x7b\x7ba\x7d\x7d\x7d\x7d" [("a", "b"), ("b", "x")] = "x" ∧
    expandArguments "\x7b\x7b\x7b\x7ba\x7d\x7d\x7d\x7d" [("b", "x"), ("a", "b")] = "\x7b\x7bb\x7d\x7d" ∧
    expandArguments "\x7b\x7bp\x7b\x7bq\x7d\x7d" [("p", "X"), ("p\x7b\x7bq", "X"), ("q", "\x7d\x7d")] = "X" ∧
    expandArguments "\x7b\x7bp\x7b\x7bq\x7d\x7d" [("p", "X"), ("q", "\x7d\x7d"), ("p\x7b\x7bq", "X")] =
      "\x7b\x7bp\x7d\x7d" := by
  decide

end ScriptSplit
